import Mathlib.Algebra.Group.Nat.Defs
import Mathlib.Data.List.Nodup
import NativeBridge.Handle.Table

/-!
# Sound handle tables

A table is *sound* when its stack of free slots and its generations fit together: the free slots
are empty and listed once, an empty slot that is not listed has no generation left, and no
generation is zero. A handle is *issued* when the table has minted it at some time; this can be
read off the slots, since a slot has minted every generation below its own, and its own unless it
waits on the stack.

Under soundness each operation has one law for look-up (`get?_insert`, `get?_set`, `get?_remove`;
the one for replacement holds of every table) and one for what is issued. An insertion mints a
handle that was never issued (`not_issued_insert`), as long as the table stays `Addressable`.
-/

namespace NativeBridge

namespace Handle

theorem ext_parts {h k : Handle} (hi : h.index = k.index) (hg : h.generation = k.generation) :
    h = k := by
  rw [← ofParts_index_generation h, hi, hg, ofParts_index_generation]

@[simp] theorem index_null : null.index = 0 := rfl

@[simp] theorem generation_null : null.generation = 0 := rfl

namespace Table

variable {α : Type} {t : Table α} {h k : Handle} {a b : α}

/-- Every slot has an index that a handle can carry. Beyond that the table is exhausted, and what
becomes of it is not described here. -/
def Addressable (t : Table α) : Prop := t.slots.size ≤ 2 ^ 32

/-- The stack of free slots and the generations fit together. -/
structure Sound (t : Table α) : Prop where
  /-- No slot is on the stack twice. -/
  free_nodup : t.free.Nodup
  /-- The slots on the stack are empty. -/
  free_empty : ∀ i ∈ t.free, ∃ g, t.slots[i.toNat]? = some ⟨g, none⟩
  /-- An empty slot is on the stack, unless it is at the last generation. -/
  empty_free : ∀ (i : UInt32) g, t.slots[i.toNat]? = some ⟨g, none⟩ → g ≠ 0xFFFFFFFF → i ∈ t.free
  /-- Generations start at one. -/
  generation_ne_zero : ∀ (i : UInt32) s, t.slots[i.toNat]? = some s → s.generation ≠ 0

/-- The table has minted `h` at some time. -/
def Issued (t : Table α) (h : Handle) : Prop :=
  ∃ s, t.slots[h.index.toNat]? = some s ∧ h.generation ≠ 0 ∧
    (h.generation < s.generation ∨ h.generation = s.generation ∧ h.index ∉ t.free)

/-! ### Look-up by slots -/

/-- The slot of what a handle addresses. -/
theorem slot_of_get? (hg : t.get? h = some a) :
    t.slots[h.index.toNat]? = some ⟨h.generation, some a⟩ := by
  unfold get? at hg
  split at hg
  · cases hg
  · split at hg
    · next s hslot =>
      split at hg
      · next hgen => rw [hslot, ← hgen, ← hg]
      · cases hg
    · cases hg

theorem get?_eq_some (hs : t.Sound) :
    t.get? h = some a ↔ t.slots[h.index.toNat]? = some ⟨h.generation, some a⟩ := by
  refine ⟨slot_of_get?, fun hslot => ?_⟩
  have hn : h.isNull = false := by
    rw [Bool.eq_false_iff, ne_eq, isNull_iff]
    rintro rfl
    exact hs.generation_ne_zero _ _ hslot rfl
  simp [get?, hn, hslot]

/-- What is on the stack of free slots does not resolve. -/
theorem index_not_mem_free (hs : t.Sound) (hg : t.get? h = some a) : h.index ∉ t.free := by
  intro hf
  obtain ⟨g, hslot⟩ := hs.free_empty _ hf
  rw [(get?_eq_some hs).mp hg] at hslot
  simp at hslot

/-- Two handles that resolve through the same slot are the same. -/
theorem eq_of_index_eq (hs : t.Sound) (hh : t.get? h = some a) (hk : t.get? k = some b)
    (hi : h.index = k.index) : h = k := by
  rw [get?_eq_some hs] at hh hk
  rw [hi, hk] at hh
  simp only [Option.some.injEq, Slot.mk.injEq] at hh
  exact ext_parts hi hh.1.symm

theorem issued_of_get? (hs : t.Sound) (hg : t.get? h = some a) : t.Issued h := by
  have hslot := (get?_eq_some hs).mp hg
  exact ⟨_, hslot, hs.generation_ne_zero _ _ hslot, .inr ⟨rfl, index_not_mem_free hs hg⟩⟩

theorem ne_of_issued (hh : t.Issued h) (hk : ¬ t.Issued k) : h ≠ k := fun e => hk (e ▸ hh)

/-! ### The empty table -/

theorem sound_empty : (empty : Table α).Sound :=
  ⟨List.nodup_nil, by simp [empty], by simp [empty], by simp [empty]⟩

@[simp] theorem get?_empty (h : Handle) : (empty : Table α).get? h = none := by
  simp [get?, empty]

@[simp] theorem not_issued_empty (h : Handle) : ¬ (empty : Table α).Issued h := by
  simp [Issued, empty]

/-! ### Insertion -/

/-- What an insertion does: it takes the top of the stack, or a new slot. -/
theorem insert_cases (hs : t.Sound) (hf : (t.insert a).2.Addressable) :
    (t.free = [] ∧ t.slots.size < 2 ^ 32 ∧
      t.insert a = (ofParts (UInt32.ofNat t.slots.size) 1,
        ⟨t.slots.push ⟨1, some a⟩, [], t.live + 1⟩)) ∨
    (∃ i rest g, t.free = i :: rest ∧ t.slots[i.toNat]? = some ⟨g, none⟩ ∧
      t.insert a =
        (ofParts i g, ⟨t.slots.setIfInBounds i.toNat ⟨g, some a⟩, rest, t.live + 1⟩)) := by
  cases hfree : t.free with
  | nil =>
    have he : t.insert a = (ofParts (UInt32.ofNat t.slots.size) 1,
        ⟨t.slots.push ⟨1, some a⟩, [], t.live + 1⟩) := by
      simp [insert, hfree]
    refine .inl ⟨rfl, ?_, he⟩
    rw [he, Addressable, Array.size_push] at hf
    omega
  | cons i rest =>
    obtain ⟨g, hslot⟩ := hs.free_empty i (by simp [hfree])
    exact .inr ⟨i, rest, g, rfl, hslot, by simp [insert, hfree, hslot]⟩

theorem size_le_size_insert (t : Table α) (a : α) : t.slots.size ≤ (t.insert a).2.slots.size := by
  unfold insert
  split <;> simp

/-- The place of an insertion is vacant: there is no slot yet, or an empty one at the generation
that is minted. -/
theorem slot_insert_index (hs : t.Sound) (hf : (t.insert a).2.Addressable) :
    t.slots[(t.insert a).1.index.toNat]? = none ∨
      t.slots[(t.insert a).1.index.toNat]? = some ⟨(t.insert a).1.generation, none⟩ := by
  obtain ⟨-, hsize, he⟩ | ⟨j, rest, g, -, hslot, he⟩ := insert_cases hs hf
  · simp [he, UInt32.toNat_ofNat_of_lt' hsize]
  · simp [he, hslot]

theorem generation_insert_ne_zero (hs : t.Sound) (hf : (t.insert a).2.Addressable) :
    (t.insert a).1.generation ≠ 0 := by
  obtain ⟨-, -, he⟩ | ⟨j, rest, g, -, hslot, he⟩ := insert_cases hs hf
  · simp [he]
  · simpa [he] using hs.generation_ne_zero _ _ hslot

theorem slots_insert (hs : t.Sound) (hf : (t.insert a).2.Addressable) (i : UInt32) :
    (t.insert a).2.slots[i.toNat]? =
      if i = (t.insert a).1.index then some ⟨(t.insert a).1.generation, some a⟩
      else t.slots[i.toNat]? := by
  obtain ⟨-, hsize, he⟩ | ⟨j, rest, g, -, hslot, he⟩ := insert_cases hs hf
  · have hiff : i = UInt32.ofNat t.slots.size ↔ i.toNat = t.slots.size := by
      rw [← UInt32.toNat_inj, UInt32.toNat_ofNat_of_lt' hsize]
    simp [he, Array.getElem?_push, hiff]
  · obtain ⟨hlt, -⟩ := Array.getElem?_eq_some_iff.mp hslot
    by_cases hij : i = j
    · subst hij
      simp [he, hlt]
    · have hne : j.toNat ≠ i.toNat := fun e => hij (UInt32.toNat_inj.mp e).symm
      simp [he, hij, Array.getElem?_setIfInBounds_ne hne]

theorem mem_free_insert (hs : t.Sound) (hf : (t.insert a).2.Addressable) (i : UInt32) :
    i ∈ (t.insert a).2.free ↔ i ∈ t.free ∧ i ≠ (t.insert a).1.index := by
  obtain ⟨hfree, -, he⟩ | ⟨j, rest, g, hfree, -, he⟩ := insert_cases hs hf
  · simp [he, hfree]
  · have hnd := hs.free_nodup
    rw [hfree, List.nodup_cons] at hnd
    simp only [he, hfree, index_ofParts, List.mem_cons]
    constructor
    · exact fun hi => ⟨.inr hi, fun e => hnd.1 (e ▸ hi)⟩
    · rintro ⟨hi | hi, hne⟩
      · exact absurd hi hne
      · exact hi

theorem sound_insert (hs : t.Sound) (hf : (t.insert a).2.Addressable) : (t.insert a).2.Sound where
  free_nodup := by
    obtain ⟨-, -, he⟩ | ⟨i, rest, g, hfree, -, he⟩ := insert_cases hs hf
    · simp [he]
    · have hnd := hs.free_nodup
      rw [hfree, List.nodup_cons] at hnd
      simpa [he] using hnd.2
  free_empty i hi := by
    rw [mem_free_insert hs hf] at hi
    rw [slots_insert hs hf, if_neg hi.2]
    exact hs.free_empty i hi.1
  empty_free i g hslot hg := by
    rw [slots_insert hs hf] at hslot
    split at hslot
    · simp at hslot
    · next hne => exact (mem_free_insert hs hf i).mpr ⟨hs.empty_free i g hslot hg, hne⟩
  generation_ne_zero i s hslot := by
    rw [slots_insert hs hf] at hslot
    split at hslot
    · cases hslot
      exact generation_insert_ne_zero hs hf
    · exact hs.generation_ne_zero i s hslot

theorem get?_insert (hs : t.Sound) (hf : (t.insert a).2.Addressable) (k : Handle) :
    (t.insert a).2.get? k = if k = (t.insert a).1 then some a else t.get? k := by
  refine Option.ext fun b => ?_
  rw [get?_eq_some (sound_insert hs hf), slots_insert hs hf]
  by_cases hi : k.index = (t.insert a).1.index
  · by_cases hg : k.generation = (t.insert a).1.generation
    · simp [ext_parts hi hg]
    · -- the place of the insertion was vacant, so `k` did not resolve before
      have hk : t.get? k = none := by
        refine Option.eq_none_iff_forall_ne_some.mpr fun c hc => ?_
        rw [get?_eq_some hs, hi] at hc
        rcases slot_insert_index hs hf with hv | hv <;> simp [hv] at hc
      have hne : k ≠ (t.insert a).1 := fun e => hg (e ▸ rfl)
      simp [hi, hne, hk, Ne.symm hg]
  · have hne : k ≠ (t.insert a).1 := fun e => hi (e ▸ rfl)
    rw [if_neg hi, if_neg hne, get?_eq_some hs]

theorem get?_insert_self (hs : t.Sound) (hf : (t.insert a).2.Addressable) :
    (t.insert a).2.get? (t.insert a).1 = some a := by
  rw [get?_insert hs hf, if_pos rfl]

/-- At the index of an insertion exactly the generations below the minted one were issued. -/
theorem issued_iff_of_index_eq (hs : t.Sound) (hf : (t.insert a).2.Addressable)
    (hi : k.index = (t.insert a).1.index) :
    t.Issued k ↔ k.generation ≠ 0 ∧ k.generation < (t.insert a).1.generation := by
  obtain ⟨-, hsize, he⟩ | ⟨j, rest, g, hfree, hslot, he⟩ := insert_cases hs hf
  · simp only [he, index_ofParts] at hi
    simp [Issued, hi, UInt32.toNat_ofNat_of_lt' hsize, he]
  · simp only [he, index_ofParts] at hi
    simp [Issued, hi, hslot, he, hfree]

/-- **Freshness.** An insertion mints a handle that the table has never issued. -/
theorem not_issued_insert (hs : t.Sound) (hf : (t.insert a).2.Addressable) :
    ¬ t.Issued (t.insert a).1 := by
  rw [issued_iff_of_index_eq hs hf rfl]
  exact fun hlt => absurd hlt.2 (UInt32.lt_irrefl _)

/-- An insertion issues the handle that it mints and no other. -/
theorem issued_insert (hs : t.Sound) (hf : (t.insert a).2.Addressable) (k : Handle) :
    (t.insert a).2.Issued k ↔ k = (t.insert a).1 ∨ t.Issued k := by
  -- only at the index of the insertion the slot and the stack change
  by_cases hi : k.index = (t.insert a).1.index
  · have hslot := slots_insert hs hf k.index
    rw [if_pos hi] at hslot
    have hfree : k.index ∉ (t.insert a).2.free :=
      fun hk => ((mem_free_insert hs hf _).mp hk).2 hi
    have heq : k.generation = (t.insert a).1.generation ↔ k = (t.insert a).1 :=
      ⟨ext_parts hi, fun e => e ▸ rfl⟩
    rw [issued_iff_of_index_eq hs hf hi, Issued]
    simp only [hslot, Option.some.injEq, exists_eq_left', hfree, not_false_eq_true, and_true, heq]
    constructor
    · rintro ⟨h0, hlt | he⟩
      · exact .inr ⟨h0, hlt⟩
      · exact .inl he
    · rintro (he | ⟨h0, hlt⟩)
      · exact ⟨heq.mpr he ▸ generation_insert_ne_zero hs hf, .inr he⟩
      · exact ⟨h0, .inl hlt⟩
  · have hne : k ≠ (t.insert a).1 := fun e => hi (e ▸ rfl)
    simp [Issued, slots_insert hs hf, mem_free_insert hs hf, hi, hne]

/-! ### Replacement -/

theorem size_set (t : Table α) (h : Handle) (a : α) : (t.set h a).slots.size = t.slots.size := by
  unfold set
  split <;> simp

@[simp] theorem free_set (t : Table α) (h : Handle) (a : α) : (t.set h a).free = t.free := by
  unfold set
  split <;> rfl

@[simp] theorem live_set (t : Table α) (h : Handle) (a : α) : (t.set h a).live = t.live := by
  unfold set
  split <;> rfl

theorem slots_set (hg : t.get? h = some a) (b : α) (i : UInt32) :
    (t.set h b).slots[i.toNat]? =
      if i = h.index then some ⟨h.generation, some b⟩ else t.slots[i.toNat]? := by
  obtain ⟨hlt, -⟩ := Array.getElem?_eq_some_iff.mp (slot_of_get? hg)
  have hc : t.contains h = true := by simp [contains, hg]
  by_cases hi : i = h.index
  · subst hi
    simp [set, hc, hlt]
  · have hne : h.index.toNat ≠ i.toNat := fun e => hi (UInt32.toNat_inj.mp e).symm
    simp [set, hc, hi, Array.getElem?_setIfInBounds_ne hne]

theorem sound_set (hs : t.Sound) (h : Handle) (b : α) : (t.set h b).Sound := by
  cases hg : t.get? h with
  | none => rwa [set_of_not_contains (by simp [contains, hg])]
  | some a =>
    have hslots := slots_set hg b
    refine ⟨by simpa using hs.free_nodup, fun i hi => ?_, fun i g hslot hmax => ?_,
      fun i s hslot => ?_⟩
    · rw [free_set] at hi
      have hne : i ≠ h.index := fun e => index_not_mem_free hs hg (e ▸ hi)
      rw [hslots, if_neg hne]
      exact hs.free_empty i hi
    · rw [hslots] at hslot
      split at hslot
      · simp at hslot
      · rw [free_set]
        exact hs.empty_free i g hslot hmax
    · rw [hslots] at hslot
      split at hslot
      · have h0 := hs.generation_ne_zero _ _ ((get?_eq_some hs).mp hg)
        cases hslot
        exact h0
      · exact hs.generation_ne_zero i s hslot

theorem get?_set (t : Table α) (h k : Handle) (b : α) :
    (t.set h b).get? k = if k = h then (t.get? h).map fun _ => b else t.get? k := by
  cases hg : t.get? h with
  | none =>
    rw [set_of_not_contains (by simp [contains, hg])]
    split <;> simp_all
  | some a =>
    have hslots := slots_set hg b k.index
    have hn : h.isNull = false := by
      rw [Bool.eq_false_iff, ne_eq, isNull_iff]
      rintro rfl
      simp at hg
    by_cases hi : k.index = h.index
    · rw [if_pos hi] at hslots
      by_cases hgen : k.generation = h.generation
      · obtain rfl := ext_parts hi hgen
        simp [get?, hn, hslots]
      · -- neither table has anything in the slot for another generation
        have hslot := slot_of_get? hg
        rw [← hi] at hslot
        have hne : k ≠ h := fun e => hgen (e ▸ rfl)
        simp [get?, hslots, hslot, hne, Ne.symm hgen]
    · have hne : k ≠ h := fun e => hi (e ▸ rfl)
      rw [if_neg hi] at hslots
      simp [get?, hslots, hne]

theorem issued_set (hs : t.Sound) (h k : Handle) (b : α) : (t.set h b).Issued k ↔ t.Issued k := by
  cases hg : t.get? h with
  | none => rw [set_of_not_contains (by simp [contains, hg])]
  | some a =>
    by_cases hi : k.index = h.index
    · have hslot := (get?_eq_some hs).mp hg
      simp [Issued, slots_set hg, hi, hslot]
    · simp [Issued, slots_set hg, hi]

/-! ### Removal -/

theorem size_remove (t : Table α) (h : Handle) : (t.remove h).slots.size = t.slots.size := by
  unfold remove
  split
  · split <;> simp
  · rfl

/-- What a removal does: it empties the slot and puts it on the stack at the next generation, or
retires it at the last one. -/
theorem remove_cases (hg : t.get? h = some a) :
    (h.generation = 0xFFFFFFFF ∧ t.remove h =
      ⟨t.slots.setIfInBounds h.index.toNat ⟨h.generation, none⟩, t.free, t.live - 1⟩) ∨
    (h.generation ≠ 0xFFFFFFFF ∧ t.remove h =
      ⟨t.slots.setIfInBounds h.index.toNat ⟨h.generation + 1, none⟩, h.index :: t.free,
        t.live - 1⟩) := by
  have hc : t.contains h = true := by simp [contains, hg]
  by_cases hmax : h.generation = 0xFFFFFFFF
  · exact .inl ⟨hmax, by simp [remove, hc, hmax]⟩
  · exact .inr ⟨hmax, by simp [remove, hc, hmax]⟩

/-- The generation of a slot after its content was removed at generation `g`. -/
def nextGeneration (g : UInt32) : UInt32 := if g = 0xFFFFFFFF then g else g + 1

theorem toNat_add_one {g : UInt32} (hmax : g ≠ 0xFFFFFFFF) : (g + 1).toNat = g.toNat + 1 := by
  have hlt := g.toNat_lt
  have hne : g.toNat ≠ 0xFFFFFFFF := fun e => hmax (UInt32.toNat_inj.mp e)
  rw [UInt32.toNat_add, UInt32.toNat_one]
  omega

theorem nextGeneration_ne_zero {g : UInt32} (h0 : g ≠ 0) : nextGeneration g ≠ 0 := by
  unfold nextGeneration
  split
  · exact h0
  · next hmax =>
    intro he
    have hg := toNat_add_one hmax
    rw [he] at hg
    simp at hg

/-- The generations that a slot has left behind once `g` is removed are those up to `g`. -/
theorem lt_nextGeneration_or_iff (g g' : UInt32) :
    (g' < nextGeneration g ∨ g' = nextGeneration g ∧ g = 0xFFFFFFFF) ↔ g' < g ∨ g' = g := by
  unfold nextGeneration
  split
  · next hmax => simp [hmax]
  · next hmax =>
    simp only [hmax, and_false, or_false, UInt32.lt_iff_toNat_lt, toNat_add_one hmax,
      ← UInt32.toNat_inj]
    omega

theorem slots_remove (hs : t.Sound) (hg : t.get? h = some a) (i : UInt32) :
    (t.remove h).slots[i.toNat]? =
      if i = h.index then some ⟨nextGeneration h.generation, none⟩ else t.slots[i.toNat]? := by
  obtain ⟨hlt, -⟩ := Array.getElem?_eq_some_iff.mp ((get?_eq_some hs).mp hg)
  by_cases hi : i = h.index
  · subst hi
    obtain ⟨hmax, he⟩ | ⟨hmax, he⟩ := remove_cases hg <;> simp [he, hlt, nextGeneration, hmax]
  · have hne : h.index.toNat ≠ i.toNat := fun e => hi (UInt32.toNat_inj.mp e).symm
    obtain ⟨-, he⟩ | ⟨-, he⟩ := remove_cases hg <;>
      simp [he, hi, Array.getElem?_setIfInBounds_ne hne]

theorem mem_free_remove (hg : t.get? h = some a) (i : UInt32) :
    i ∈ (t.remove h).free ↔ i ∈ t.free ∨ i = h.index ∧ h.generation ≠ 0xFFFFFFFF := by
  obtain ⟨hmax, he⟩ | ⟨hmax, he⟩ := remove_cases hg
  · simp [he, hmax]
  · simp [he, hmax, or_comm]

theorem sound_remove (hs : t.Sound) (h : Handle) : (t.remove h).Sound := by
  cases hg : t.get? h with
  | none => rwa [remove_of_not_contains (by simp [contains, hg])]
  | some a =>
    have hslots := slots_remove hs hg
    have hnot := index_not_mem_free hs hg
    refine ⟨?_, fun i hi => ?_, fun i g hslot hne => ?_, fun i s hslot => ?_⟩
    · obtain ⟨-, he⟩ | ⟨-, he⟩ := remove_cases hg
      · simpa [he] using hs.free_nodup
      · simpa [he] using ⟨hnot, hs.free_nodup⟩
    · rw [hslots]
      split
      · exact ⟨_, rfl⟩
      · next hne =>
        rw [mem_free_remove hg] at hi
        exact hs.free_empty i (hi.resolve_right fun e => hne e.1)
    · rw [mem_free_remove hg]
      rw [hslots] at hslot
      split at hslot
      · next hi =>
        -- a slot that is retired has the last generation still
        refine .inr ⟨hi, fun hmax => hne ?_⟩
        simp only [Option.some.injEq, Slot.mk.injEq] at hslot
        rw [← hslot.1, nextGeneration, if_pos hmax, hmax]
      · exact .inl (hs.empty_free i g hslot hne)
    · rw [hslots] at hslot
      split at hslot
      · cases hslot
        exact nextGeneration_ne_zero (hs.generation_ne_zero _ _ ((get?_eq_some hs).mp hg))
      · exact hs.generation_ne_zero i s hslot

theorem get?_remove (hs : t.Sound) (h k : Handle) :
    (t.remove h).get? k = if k = h then none else t.get? k := by
  cases hg : t.get? h with
  | none =>
    rw [remove_of_not_contains (by simp [contains, hg])]
    split <;> simp_all
  | some a =>
    refine Option.ext fun c => ?_
    rw [get?_eq_some (sound_remove hs h), slots_remove hs hg]
    by_cases hi : k.index = h.index
    · -- no handle but `h` resolved through the slot
      have hk : k = h ∨ t.get? k = none := by
        refine or_iff_not_imp_left.mpr fun hne => ?_
        exact Option.eq_none_iff_forall_ne_some.mpr fun d hd => hne (eq_of_index_eq hs hd hg hi)
      rcases hk with rfl | hk
      · simp
      · simp [hi, hk]
    · have hne : k ≠ h := fun e => hi (e ▸ rfl)
      rw [if_neg hi, if_neg hne, get?_eq_some hs]

/-- A removal leaves what was issued as it is: the handle that it makes stale stays issued. -/
theorem issued_remove (hs : t.Sound) (h k : Handle) : (t.remove h).Issued k ↔ t.Issued k := by
  cases hg : t.get? h with
  | none => rw [remove_of_not_contains (by simp [contains, hg])]
  | some a =>
    have hslot := (get?_eq_some hs).mp hg
    have hnot := index_not_mem_free hs hg
    by_cases hi : k.index = h.index
    · simp only [Issued, slots_remove hs hg, mem_free_remove hg, hi, hslot, hnot, if_true,
        Option.some.injEq, exists_eq_left', false_or, true_and, not_not, not_false_eq_true,
        and_true]
      rw [lt_nextGeneration_or_iff]
    · simp [Issued, slots_remove hs hg, mem_free_remove hg, hi]

end Table

end Handle

end NativeBridge
