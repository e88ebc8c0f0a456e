/-!
# Handles

A handle is an opaque 64-bit reference to something the machine owns. The high half is the
index of a slot in the machine's handle table, the low half the generation that the slot had
when the handle was minted. Live generations start at `1`, so no live handle has the bit
pattern `0`, which is the null handle.
-/

namespace NativeBridge

/-- An opaque reference: slot index in the high 32 bits, generation in the low 32 bits. -/
structure Handle where
  /-- The raw bit pattern. -/
  bits : UInt64
  deriving DecidableEq, Hashable

namespace Handle

/-- The null handle: "no value" or "not found". -/
def null : Handle := ⟨0⟩

instance : Inhabited Handle := ⟨null⟩

/-- The handle of slot `index` at `generation`. -/
def ofParts (index generation : UInt32) : Handle :=
  ⟨(index.toUInt64 <<< 32) ||| generation.toUInt64⟩

/-- The slot index. -/
def index (h : Handle) : UInt32 := (h.bits >>> 32).toUInt32

/-- The slot generation at minting. -/
def generation (h : Handle) : UInt32 := h.bits.toUInt32

/-- Whether this is the null handle. -/
def isNull (h : Handle) : Bool := h.bits == 0

/-- The handle itself, unless it is null. -/
def nonNull? (h : Handle) : Option Handle := if h.isNull then none else some h

/-- A missing handle is the null handle. -/
def ofOption (h : Option Handle) : Handle := h.getD null

/-- The text of a handle: index and generation, or the word for null. -/
def text (h : Handle) : String :=
  if h.isNull then "Handle::NULL" else s!"Handle({h.index.toNat}v{h.generation.toNat})"

instance : ToString Handle := ⟨text⟩

/-- Handles are ordered by their bits, that is by index and then by generation. -/
instance : LE Handle := ⟨fun a b => a.bits ≤ b.bits⟩

instance : LT Handle := ⟨fun a b => a.bits < b.bits⟩

instance (a b : Handle) : Decidable (a ≤ b) := inferInstanceAs (Decidable (a.bits ≤ b.bits))

instance (a b : Handle) : Decidable (a < b) := inferInstanceAs (Decidable (a.bits < b.bits))

/-- The handles of a list in ascending order, each once. -/
def sortedDistinct (hs : List Handle) : List Handle :=
  (hs.mergeSort fun a b => decide (a ≤ b)).eraseReps

/-! ### Encoding -/

theorem toNat_ofParts (i g : UInt32) :
    (ofParts i g).bits.toNat = i.toNat * 4294967296 + g.toNat := by
  have hi := i.toNat_lt
  have hg := g.toNat_lt
  have h : i.toNat <<< 32 < 2 ^ 64 := by rw [Nat.shiftLeft_eq]; omega
  simp only [ofParts, UInt64.toNat_or, UInt64.toNat_shiftLeft, UInt32.toNat_toUInt64,
    UInt64.reduceToNat, Nat.reduceMod, Nat.mod_eq_of_lt h]
  rw [← Nat.shiftLeft_add_eq_or_of_lt hg, Nat.shiftLeft_eq]

theorem toNat_index (h : Handle) : h.index.toNat = h.bits.toNat / 4294967296 := by
  have := h.bits.toNat_lt
  simp [index, Nat.shiftRight_eq_div_pow]
  omega

theorem toNat_generation (h : Handle) : h.generation.toNat = h.bits.toNat % 4294967296 := by
  rw [generation, UInt64.toNat_toUInt32]

@[simp] theorem index_ofParts (i g : UInt32) : (ofParts i g).index = i := by
  have := g.toNat_lt
  rw [← UInt32.toNat_inj, toNat_index, toNat_ofParts]
  omega

@[simp] theorem generation_ofParts (i g : UInt32) : (ofParts i g).generation = g := by
  have := g.toNat_lt
  rw [← UInt32.toNat_inj, toNat_generation, toNat_ofParts]
  omega

@[simp] theorem ofParts_index_generation (h : Handle) : ofParts h.index h.generation = h := by
  have e : (ofParts h.index h.generation).bits = h.bits := by
    rw [← UInt64.toNat_inj, toNat_ofParts, toNat_index, toNat_generation]
    omega
  exact congrArg mk e

/-! ### Null -/

@[simp] theorem isNull_null : null.isNull = true := rfl

theorem isNull_iff {h : Handle} : h.isNull = true ↔ h = null := by
  cases h
  simp [isNull, null]

theorem nonNull?_null : null.nonNull? = none := rfl

theorem ofOption_nonNull? (h : Handle) : ofOption h.nonNull? = h := by
  unfold nonNull?
  split
  · next hn => exact (isNull_iff.mp hn).symm
  · rfl

end Handle

end NativeBridge
