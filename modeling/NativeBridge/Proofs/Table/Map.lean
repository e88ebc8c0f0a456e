import NativeBridge.Proofs.Table.Sound

/-!
# Tables under a map of contents

Changing what the slots of a table hold, one by one, changes neither the handles that the table
mints nor those that resolve. Tables are compared up to what a map does not tell apart
(`map_set_of_eq`).
-/

namespace NativeBridge

/-- Putting an element of an array into its own place. -/
theorem setIfInBounds_of_getElem? {β : Type} {xs : Array β} {i : Nat} {b : β}
    (hi : xs[i]? = some b) : xs.setIfInBounds i b = xs := by
  ext j <;> grind

namespace Handle

variable {α : Type} (f : α → α)

/-- The slot with its content changed by `f`. -/
def Slot.map (s : Slot α) : Slot α := { s with content := s.content.map f }

@[simp] theorem Slot.generation_map (s : Slot α) : (s.map f).generation = s.generation := rfl

@[simp] theorem Slot.content_map (s : Slot α) : (s.map f).content = s.content.map f := rfl

namespace Table

/-- The table with the contents of all slots changed by `f`. -/
def map (t : Table α) : Table α := { t with slots := t.slots.map (Slot.map f) }

@[simp] theorem free_map (t : Table α) : (t.map f).free = t.free := rfl

@[simp] theorem live_map (t : Table α) : (t.map f).live = t.live := rfl

theorem getElem?_slots_map (t : Table α) (i : Nat) :
    (t.map f).slots[i]? = t.slots[i]?.map (Slot.map f) := Array.getElem?_map

@[simp] theorem get?_map (t : Table α) (h : Handle) : (t.map f).get? h = (t.get? h).map f := by
  unfold get?
  rw [getElem?_slots_map]
  cases hslot : t.slots[h.index.toNat]? with
  | none => split <;> rfl
  | some slot =>
    simp only [Option.map_some, Slot.generation_map, Slot.content_map]
    split
    · rfl
    · by_cases hg : slot.generation = h.generation <;> simp [hg]

@[simp] theorem contains_map (t : Table α) (h : Handle) :
    (t.map f).contains h = t.contains h := by
  rw [contains, get?_map, Option.isSome_map, contains]

theorem insert_map (t : Table α) (a : α) :
    (t.map f).insert (f a) = ((t.insert a).1, (t.insert a).2.map f) := by
  unfold insert
  rw [free_map]
  split
  · simp [map, Slot.map]
  · next i rest hfree =>
    have hgeneration : ((t.map f).slots[i.toNat]?.map Slot.generation).getD 1 =
        (t.slots[i.toNat]?.map Slot.generation).getD 1 := by
      rw [getElem?_slots_map]
      cases t.slots[i.toNat]? <;> rfl
    simp only [hgeneration]
    simp [map, Slot.map]

theorem set_map (t : Table α) (h : Handle) (a : α) :
    (t.map f).set h (f a) = (t.set h a).map f := by
  unfold set
  rw [contains_map]
  split
  · simp [map, Slot.map]
  · rfl

theorem remove_map (t : Table α) (h : Handle) : (t.map f).remove h = (t.remove h).map f := by
  unfold remove
  rw [contains_map]
  split
  · dsimp only
    split <;> simp [map, Slot.map]
  · rfl

theorem set_self {t : Table α} {h : Handle} {a : α} (hg : t.get? h = some a) : t.set h a = t := by
  rw [set, if_pos (contains_iff.mpr ⟨a, hg⟩), setIfInBounds_of_getElem? (slot_of_get? hg)]

/-- Putting something into the place of what the map does not tell from it. -/
theorem map_set_of_eq {t : Table α} {h : Handle} {a b : α} (hg : t.get? h = some a)
    (hab : f b = f a) : (t.set h b).map f = t.map f := by
  rw [← set_map, hab, set_map, set_self hg]

theorem map_map (g : α → α) (t : Table α) : (t.map f).map g = t.map (g ∘ f) := by
  have hslot : Slot.map g ∘ Slot.map f = Slot.map (g ∘ f) := by
    funext s
    simp [Slot.map]
  simp [map, hslot]

end Table

end Handle

end NativeBridge
