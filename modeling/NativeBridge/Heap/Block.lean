import NativeBridge.Value
import NativeBridge.Heap.Protection

/-!
# Heap blocks

A block is a row of cells. A cell is empty or holds a value, and carries its own protection.
Resizing keeps the cells that both sizes have, protection included; cells that are new are empty
and unprotected.
-/

namespace NativeBridge

namespace Heap

/-- One cell of a block. -/
structure Cell where
  /-- What the cell holds. -/
  value : Option Value
  /-- Which accesses fault. -/
  protection : Protection

/-- An empty cell without protection. -/
def Cell.empty : Cell := ⟨none, .none⟩

/-- A heap block. -/
structure Block where
  /-- The cells, by offset. -/
  cells : Array Cell

namespace Block

/-- A block of `n` empty cells. -/
def ofSize (n : UInt64) : Block := ⟨Array.replicate n.toNat .empty⟩

/-- The number of cells. -/
def size (b : Block) : UInt64 := UInt64.ofNat b.cells.size

/-- Whether there are no cells. -/
def isEmpty (b : Block) : Bool := b.cells.isEmpty

/-- The cell at an offset within bounds. -/
def cell? (b : Block) (offset : UInt64) : Option Cell := b.cells[offset.toNat]?

/-- Puts a cell at an offset within bounds. -/
def setCell (b : Block) (offset : UInt64) (c : Cell) : Block :=
  ⟨b.cells.setIfInBounds offset.toNat c⟩

/-- The block with `n` cells: the first ones kept, new ones empty. -/
def resize (b : Block) (n : UInt64) : Block :=
  ⟨b.cells.take n.toNat ++ Array.replicate (n.toNat - b.cells.size) .empty⟩

@[simp] theorem size_cells_ofSize (n : UInt64) : (ofSize n).cells.size = n.toNat := by
  simp [ofSize]

@[simp] theorem size_ofSize (n : UInt64) : (ofSize n).size = n := by simp [size]

@[simp] theorem size_cells_resize (b : Block) (n : UInt64) :
    (b.resize n).cells.size = n.toNat := by
  simp [resize]
  omega

@[simp] theorem size_resize (b : Block) (n : UInt64) : (b.resize n).size = n := by
  simp [size]

@[simp] theorem size_cells_setCell (b : Block) (o : UInt64) (c : Cell) :
    (b.setCell o c).cells.size = b.cells.size := by
  simp [setCell]

@[simp] theorem size_setCell (b : Block) (o : UInt64) (c : Cell) :
    (b.setCell o c).size = b.size := by
  simp [size]

theorem cell?_ofSize (n o : UInt64) :
    (ofSize n).cell? o = if o < n then some .empty else none := by
  simp [ofSize, cell?, Array.getElem?_replicate, UInt64.lt_iff_toNat_lt]

theorem cell?_setCell (b : Block) (o o' : UInt64) (c : Cell) :
    (b.setCell o c).cell? o' = if o' = o then (b.cell? o).map fun _ => c else b.cell? o' := by
  by_cases h : o' = o
  · subst h
    simp only [setCell, cell?, Array.getElem?_setIfInBounds_self, if_true]
    split <;> simp_all
  · have h' : o.toNat ≠ o'.toNat := fun e => h (UInt64.toNat_inj.mp e).symm
    simp [setCell, cell?, Array.getElem?_setIfInBounds_ne h', h]

theorem cell?_resize (b : Block) (n o : UInt64) :
    (b.resize n).cell? o = if o < n then some ((b.cell? o).getD .empty) else none := by
  simp only [resize, cell?, UInt64.lt_iff_toNat_lt, Array.take_eq_extract, Array.getElem?_append,
    Array.getElem?_replicate, Array.getElem?_extract, Array.size_extract]
  grind

end Block

/-- Usage counters over all blocks of a machine. -/
structure Stats where
  /-- Blocks allocated at present. -/
  liveBlocks : UInt64
  /-- Cells of all of them. -/
  usedSlots : UInt64
  deriving DecidableEq

/-- The counters of a heap without blocks. -/
def Stats.zero : Stats := ⟨0, 0⟩

/-- The sum of two counts, unless it overflows. -/
def checkedAdd? (a b : UInt64) : Option UInt64 :=
  if a.toNat + b.toNat < UInt64.size then some (a + b) else none

theorem checkedAdd?_eq_some_iff {a b total : UInt64} :
    checkedAdd? a b = some total ↔ total.toNat = a.toNat + b.toNat := by
  unfold checkedAdd?
  split
  · next hfits =>
    have hsum : (a + b).toNat = a.toNat + b.toNat :=
      (UInt64.toNat_add a b).trans (Nat.mod_eq_of_lt hfits)
    rw [Option.some_inj, ← UInt64.toNat_inj, hsum, eq_comm]
  · next hover =>
    have hbound := total.toNat_lt_size
    simp only [reduceCtorEq, false_iff]
    omega

end Heap

end NativeBridge
