import NativeBridge.Vm.Values

/-!
# The heap of a machine

Blocks are addressed by handle. Every access is checked against the bounds of the block and then
against the protection of the cell. Cells hold scalars by value and everything else by
reference. All live blocks together stay within a budget of slots; an allocation or a growth
that would not fails with a report.
-/

namespace NativeBridge

namespace Vm

variable {σ : Type}

/-- The block that `h` addresses. -/
def block (vm : Vm σ) (h : Handle) : Except BridgeError Heap.Block :=
  match vm.object? h with
  | some (.block b) => .ok b
  | some other => .error (.badHandle (.addresses h other.kind .block))
  | none => .error (.badHandle (.addressesNothing h .block))

/-- The block that `h` addresses and its cell at an offset. -/
def cell (vm : Vm σ) (h : Handle) (offset : UInt64) :
    Except BridgeError (Heap.Block × Heap.Cell) :=
  match vm.block h with
  | .error e => .error e
  | .ok b =>
    match b.cell? offset with
    | some c => .ok (b, c)
    | none => .error (.badHandle (.outOfBounds h offset b.size))

/-- Puts a block in the place of the one that `h` addresses. -/
def setBlock (vm : Vm σ) (h : Handle) (b : Heap.Block) : Vm σ :=
  { vm with table := vm.table.set h (.block b) }

/-- Whether the budget has room for more slots. It has none for a total that overflows. -/
def budgetAllows (vm : Vm σ) (extra : UInt64) : Bool :=
  (Heap.checkedAdd? vm.heap.usedSlots extra).any fun total => total ≤ vm.options.maxHeapSlots

/-- A new block of empty cells, if the budget has room for it. -/
def alloc (vm : Vm σ) (site : Site) (size : UInt64) : Option Handle × Vm σ :=
  if vm.budgetAllows size then
    let (h, table) := vm.table.insert (.block (.ofSize size))
    let vm := { vm with
      table := table
      heap := ⟨vm.heap.liveBlocks + 1, vm.heap.usedSlots + size⟩ }
    (some h, vm.record (.blockAllocated h size))
  else
    (none, vm.report site true .error
      (.allocation size vm.heap.usedSlots vm.options.maxHeapSlots))

/-- Ends the life of a block. -/
def free (vm : Vm σ) (site : Site) (h : Handle) : Vm σ :=
  match vm.block h with
  | .error e => vm.report site true vm.options.defaultSeverity (.badFree e)
  | .ok b =>
    let vm := { vm with
      table := vm.table.remove h
      heap := ⟨vm.heap.liveBlocks - 1, vm.heap.usedSlots - b.size⟩ }
    vm.record (.blockFreed h b.size)

/-- Gives a live block a size that is not zero, if the budget has room for the growth. -/
def resizeBlock (vm : Vm σ) (site : Site) (h : Handle) (size : UInt64) : Option Handle × Vm σ :=
  match vm.block h with
  | .error e => (none, vm.report site true vm.options.defaultSeverity (.badResize e))
  | .ok b =>
    if b.size < size && !vm.budgetAllows (size - b.size) then
      (none, vm.report site true .error
        (.resize h size vm.heap.usedSlots vm.options.maxHeapSlots))
    else
      let vm := { vm.setBlock h (b.resize size) with
        heap := ⟨vm.heap.liveBlocks, vm.heap.usedSlots - b.size + size⟩ }
      (some h, vm.record (.blockResized h b.size size))

/-- Gives a block another size. For the null handle this allocates, unless the size is zero too;
for size zero it frees. -/
def resize (vm : Vm σ) (site : Site) (h : Handle) (size : UInt64) : Option Handle × Vm σ :=
  if h.isNull then
    if size = 0 then (none, vm) else vm.alloc site size
  else if size = 0 then (none, vm.free site h)
  else vm.resizeBlock site h size

/-- The number of cells of a block. -/
def blockSize (vm : Vm σ) (h : Handle) : Except BridgeError UInt64 :=
  (vm.block h).map Heap.Block.size

/-- What a cell holds. -/
def read (vm : Vm σ) (h : Handle) (offset : UInt64) : Except BridgeError (Option Value) :=
  match vm.cell h offset with
  | .error e => .error e
  | .ok (_, c) => if c.protection.read then .error (.security (.read h offset)) else .ok c.value

/-- Puts a value into a cell, or empties it. -/
def store (vm : Vm σ) (h : Handle) (offset : UInt64) (value : Option Value) :
    Except BridgeError (Vm σ) :=
  match vm.cell h offset with
  | .error e => .error e
  | .ok (b, c) =>
    if c.protection.write then .error (.security (.write h offset))
    else .ok (vm.setBlock h (b.setCell offset { c with value := value }))

/-- Stores what `value` addresses in a cell. The null handle empties the cell. -/
def write (vm : Vm σ) (h : Handle) (offset : UInt64) (value : Handle) :
    Except BridgeError (Vm σ) :=
  match vm.value? value with
  | none => .error (.badHandle (.staleStore value))
  | some .null => vm.store h offset none
  | some v => vm.store h offset (some v)

/-- Protects a cell. -/
def protect (vm : Vm σ) (h : Handle) (offset : UInt64) (protection : Heap.Protection) :
    Except BridgeError (Vm σ) :=
  match vm.cell h offset with
  | .error e => .error e
  | .ok (b, c) => .ok (vm.setBlock h (b.setCell offset { c with protection := protection }))

end Vm

end NativeBridge
