import NativeBridge.Handle

/-!
# The handle table

What a machine owns lives in a table of slots. A slot keeps a generation; removing its content
moves the generation on and puts the index on a stack of free slots, from which the next
insertion takes the one freed last. A handle resolves while the generation it carries is the
generation of an occupied slot, so a copy of a removed handle never resolves again, whatever
reuses the slot. A slot whose generation cannot move on is retired: it is not reused. The debug
line that goes with this is no part of the development; neither the table nor the journal of a
machine tells of retired slots.
-/

namespace NativeBridge

namespace Handle

/-- A slot of the table: empty, or occupied by the content of the handle minted last. -/
structure Slot (α : Type) where
  /-- The generation of the present or the next occupant. -/
  generation : UInt32
  /-- The occupant. -/
  content : Option α

/-- A table of generation-counted slots. -/
structure Table (α : Type) where
  /-- Every slot ever created. -/
  slots : Array (Slot α)
  /-- Indices of the slots to reuse, the one freed last in front. -/
  free : List UInt32
  /-- The number of occupied slots. -/
  live : Nat

namespace Table

variable {α : Type}

/-- The table without slots. -/
def empty : Table α := ⟨#[], [], 0⟩

/-- Stores `a` in the slot freed last, or in a new slot of generation `1`, and mints its handle. -/
def insert (t : Table α) (a : α) : Handle × Table α :=
  match t.free with
  | [] =>
    (ofParts (UInt32.ofNat t.slots.size) 1, ⟨t.slots.push ⟨1, some a⟩, [], t.live + 1⟩)
  | i :: rest =>
    let generation := (t.slots[i.toNat]?.map Slot.generation).getD 1
    (ofParts i generation,
      ⟨t.slots.setIfInBounds i.toNat ⟨generation, some a⟩, rest, t.live + 1⟩)

/-- What `h` addresses; nothing for the null handle and for one that is stale or was never
minted. -/
def get? (t : Table α) (h : Handle) : Option α :=
  if h.isNull then none
  else
    match t.slots[h.index.toNat]? with
    | some slot => if slot.generation = h.generation then slot.content else none
    | none => none

/-- Whether `h` addresses something. -/
def contains (t : Table α) (h : Handle) : Bool := (t.get? h).isSome

/-- Puts `a` in the place of what `h` addresses. A handle that addresses nothing changes
nothing. -/
def set (t : Table α) (h : Handle) (a : α) : Table α :=
  if t.contains h then
    { t with slots := t.slots.setIfInBounds h.index.toNat ⟨h.generation, some a⟩ }
  else t

/-- Empties the slot that `h` addresses, which makes every copy of `h` stale. The slot is free
for reuse at the next generation. If there is none, it is retired, without an event that says so. -/
def remove (t : Table α) (h : Handle) : Table α :=
  if t.contains h then
    let i := h.index
    if h.generation = 0xFFFFFFFF then
      ⟨t.slots.setIfInBounds i.toNat ⟨h.generation, none⟩, t.free, t.live - 1⟩
    else
      ⟨t.slots.setIfInBounds i.toNat ⟨h.generation + 1, none⟩, i :: t.free, t.live - 1⟩
  else t

@[simp] theorem get?_null (t : Table α) : t.get? null = none := rfl

theorem contains_iff {t : Table α} {h : Handle} :
    t.contains h = true ↔ ∃ a, t.get? h = some a :=
  Option.isSome_iff_exists

theorem remove_of_not_contains {t : Table α} {h : Handle} (hc : t.contains h = false) :
    t.remove h = t := by
  simp [remove, hc]

theorem set_of_not_contains {t : Table α} {h : Handle} (hc : t.contains h = false) (a : α) :
    t.set h a = t := by
  simp [set, hc]

end Table

end Handle

end NativeBridge
