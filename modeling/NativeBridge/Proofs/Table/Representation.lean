import NativeBridge.Proofs.Table.History

/-!
# The representation of a handle table

A table keeps more than its slots: a stack of those to reuse, a generation for each and the number
of those that are occupied. In a table that began empty these agree with what was done to it
(`table_representation`). The generation of a slot counts how often the slot was emptied
(`toNat_generationAt_replay`), up to the last generation, where a slot retires; and the number that
the table keeps is the number of its occupied slots (`tallied_replay`).
-/

namespace NativeBridge

namespace Handle

/-- The slot that was emptied. -/
def Fate.emptied? {α : Type} : Fate α → Option UInt32
  | minted _ _ => none
  | removed h => some h.index

namespace Table

variable {α : Type} {t : Table α} {h : Handle} {a b : α} {cs : List (Change α)}

/-! ### Generations -/

/-- How often a slot was emptied. -/
def removals (fs : List (Fate α)) (i : UInt32) : ℕ := fs.countP fun f => f.emptied? = some i

theorem removals_append (fs gs : List (Fate α)) (i : UInt32) :
    removals (fs ++ gs) i = removals fs i + removals gs i := List.countP_append

/-- The generation of a slot; one that is not there yet will begin with the first. -/
def generationAt (t : Table α) (i : UInt32) : UInt32 := (t.slots[i.toNat]?).elim 1 Slot.generation

theorem generationAt_of_slot {i : UInt32} {s : Slot α} (hi : t.slots[i.toNat]? = some s) :
    t.generationAt i = s.generation := by
  rw [generationAt, hi, Option.elim_some]

theorem generationAt_insert (hs : t.Sound) (hf : (t.insert a).2.Addressable) (i : UInt32) :
    (t.insert a).2.generationAt i = t.generationAt i := by
  have hslots := slots_insert hs hf i
  by_cases hi : i = (t.insert a).1.index
  · rw [if_pos hi] at hslots
    rw [generationAt_of_slot hslots]
    -- a new slot gets the generation that it would begin with
    obtain ⟨-, hsize, he⟩ | ⟨j, rest, g, -, hslot, he⟩ := insert_cases hs hf
    · simp only [he, index_ofParts] at hi
      simp [generationAt, he, hi, UInt32.toNat_ofNat_of_lt' hsize]
    · simp only [he, index_ofParts] at hi
      simp [generationAt, he, hi, hslot]
  · rw [if_neg hi] at hslots
    rw [generationAt, hslots, generationAt]

theorem generationAt_set (h : Handle) (b : α) (i : UInt32) :
    (t.set h b).generationAt i = t.generationAt i := by
  cases hg : t.get? h with
  | none => rw [set_of_not_contains (by simp [contains, hg])]
  | some a =>
    have hslots := slots_set hg b i
    by_cases hi : i = h.index
    · rw [if_pos hi] at hslots
      rw [generationAt_of_slot hslots, hi, generationAt_of_slot (slot_of_get? hg)]
    · rw [if_neg hi] at hslots
      rw [generationAt, hslots, generationAt]

theorem generationAt_remove (hs : t.Sound) (hg : t.get? h = some a) (i : UInt32) :
    (t.remove h).generationAt i =
      if i = h.index then nextGeneration (t.generationAt i) else t.generationAt i := by
  have hslots := slots_remove hs hg i
  by_cases hi : i = h.index
  · rw [if_pos hi] at hslots ⊢
    rw [generationAt_of_slot hslots, hi, generationAt_of_slot (slot_of_get? hg)]
  · rw [if_neg hi] at hslots ⊢
    rw [generationAt, hslots, generationAt]

theorem toNat_nextGeneration (g : UInt32) :
    (nextGeneration g).toNat = min (g.toNat + 1) 4294967295 := by
  have hlt := g.toNat_lt
  unfold nextGeneration
  split
  · next hmax => rw [hmax]; rfl
  · next hmax =>
    have hne : g.toNat ≠ 4294967295 := fun e => hmax (UInt32.toNat_inj.mp e)
    rw [toNat_add_one hmax]
    omega

/-- A change moves the generation of a slot on if it empties the slot. -/
theorem toNat_generationAt_apply (hs : t.Sound) {c : Change α} (hf : (t.apply c).Addressable)
    (i : UInt32) :
    ((t.apply c).generationAt i).toNat =
      min ((t.generationAt i).toNat + removals (t.fates [c]) i) 4294967295 := by
  have hlt := (t.generationAt i).toNat_lt
  cases c with
  | insert a =>
    rw [apply, generationAt_insert hs hf]
    simp only [fates, removals, List.countP_singleton, Fate.emptied?]
    simp only [reduceCtorEq, decide_false, Bool.false_eq_true, if_false]
    omega
  | set h b =>
    rw [apply, generationAt_set]
    simp only [fates, removals, List.countP_nil]
    omega
  | remove h =>
    cases hg : t.get? h with
    | none =>
      have hc : t.contains h = false := by simp [contains, hg]
      rw [apply, remove_of_not_contains hc]
      simp only [fates, hc, removals, Bool.false_eq_true, if_false, List.countP_nil]
      omega
    | some a =>
      have hc : t.contains h = true := by simp [contains, hg]
      rw [apply, generationAt_remove hs hg]
      by_cases hi : i = h.index
      · rw [if_pos hi, toNat_nextGeneration]
        simp [fates, hc, removals, Fate.emptied?, hi]
      · simp only [if_neg hi, fates, hc, removals, if_true, List.countP_singleton, Fate.emptied?,
          Option.some.injEq, Ne.symm hi, decide_false, Bool.false_eq_true, if_false]
        omega

/-- **Generations count removals**, until a slot has none left. -/
theorem toNat_generationAt_replay (hs : t.Sound) (hf : (t.replay cs).Addressable) (i : UInt32) :
    ((t.replay cs).generationAt i).toNat =
      min ((t.generationAt i).toNat + removals (t.fates cs) i) 4294967295 := by
  induction cs generalizing t with
  | nil =>
    have hlt := (t.generationAt i).toNat_lt
    simp only [replay_nil, fates, removals, List.countP_nil]
    omega
  | cons c cs ih =>
    have hf' : (t.apply c).Addressable := Addressable.of_replay hf
    have hfates : t.fates (c :: cs) = t.fates [c] ++ (t.apply c).fates cs := t.fates_append [c] cs
    rw [replay_cons, ih (sound_apply hs hf') hf, toNat_generationAt_apply hs hf', hfates,
      removals_append]
    omega

/-! ### Occupied slots -/

/-- The number of occupied slots. -/
def occupied (t : Table α) : ℕ := t.slots.countP fun s => s.content.isSome

/-- The table keeps the number of its occupied slots. -/
def Tallied (t : Table α) : Prop := t.live = t.occupied

/-- A count over an array changes with the one item that changes. -/
theorem countP_setIfInBounds {β : Type} {xs : Array β} {n : ℕ} {x : β} (hx : xs[n]? = some x)
    (y : β) (p : β → Bool) :
    (xs.setIfInBounds n y).countP p + (p x).toNat = xs.countP p + (p y).toNat := by
  obtain ⟨hn, rfl⟩ := Array.getElem?_eq_some_iff.mp hx
  have hone : ∀ b : Bool, (if b = true then 1 else 0) = b.toNat := by decide
  have hle := Array.boole_getElem_le_countP (p := p) hn
  rw [hone] at hle
  rw [Array.setIfInBounds, dif_pos hn, Array.countP_set hn, hone, hone]
  omega

theorem tallied_empty : (empty : Table α).Tallied := rfl

theorem tallied_insert (hs : t.Sound) (hf : (t.insert a).2.Addressable) (ht : t.Tallied) :
    (t.insert a).2.Tallied := by
  obtain ⟨-, -, he⟩ | ⟨i, rest, g, -, hslot, he⟩ := insert_cases hs hf
  · rw [Tallied, he, ht, occupied, occupied, Array.countP_push]
    rfl
  · have hcount := countP_setIfInBounds hslot ⟨g, some a⟩ fun s => s.content.isSome
    rw [Tallied, he, ht, occupied, occupied]
    exact hcount.symm

theorem tallied_set (h : Handle) (b : α) (ht : t.Tallied) : (t.set h b).Tallied := by
  cases hg : t.get? h with
  | none => rwa [set_of_not_contains (by simp [contains, hg])]
  | some a =>
    have hc : t.contains h = true := by simp [contains, hg]
    have hcount := countP_setIfInBounds (slot_of_get? hg) ⟨h.generation, some b⟩
      fun s => s.content.isSome
    rw [Tallied, live_set, ht, occupied, occupied, set, if_pos hc]
    exact (Nat.add_right_cancel hcount).symm

/-- A removal that takes something out has something to count down from. -/
theorem live_remove (ht : t.Tallied) (hg : t.get? h = some a) :
    (t.remove h).live + 1 = t.live ∧ (t.remove h).Tallied := by
  have hcount : ∀ g, (t.slots.setIfInBounds h.index.toNat ⟨g, none⟩).countP
      (fun s => s.content.isSome) + 1 = t.live := by
    intro g
    rw [ht, occupied]
    exact countP_setIfInBounds (slot_of_get? hg) ⟨g, none⟩ fun s => s.content.isSome
  have hpos : t.live - 1 + 1 = t.live := by
    have hzero := hcount 0
    omega
  obtain ⟨-, he⟩ | ⟨-, he⟩ := remove_cases hg
  · rw [Tallied, occupied, he]
    exact ⟨hpos, Nat.add_right_cancel (hpos.trans (hcount h.generation).symm)⟩
  · rw [Tallied, occupied, he]
    exact ⟨hpos, Nat.add_right_cancel (hpos.trans (hcount (h.generation + 1)).symm)⟩

theorem tallied_apply (hs : t.Sound) {c : Change α} (hf : (t.apply c).Addressable)
    (ht : t.Tallied) : (t.apply c).Tallied := by
  cases c with
  | insert a => exact tallied_insert hs hf ht
  | set h b => exact tallied_set h b ht
  | remove h =>
    cases hg : t.get? h with
    | none => rwa [apply, remove_of_not_contains (by simp [contains, hg])]
    | some a => exact (live_remove ht hg).2

/-- **Occupied slots are counted.** -/
theorem tallied_replay (hs : t.Sound) (hf : (t.replay cs).Addressable) (ht : t.Tallied) :
    (t.replay cs).Tallied := by
  induction cs generalizing t with
  | nil => exact ht
  | cons c cs ih =>
    have hf' : (t.apply c).Addressable := Addressable.of_replay hf
    exact ih (sound_apply hs hf') hf (tallied_apply hs hf' ht)

/-! ### What comes next -/

theorem Addressable.exists_index (hf : t.Addressable) {s : Slot α} (hmem : s ∈ t.slots) :
    ∃ i : UInt32, t.slots[i.toNat]? = some s := by
  obtain ⟨n, hn⟩ := Array.mem_iff_getElem?.mp hmem
  obtain ⟨hlt, -⟩ := Array.getElem?_eq_some_iff.mp hn
  refine ⟨UInt32.ofNat n, ?_⟩
  rwa [UInt32.toNat_ofNat_of_lt' (Nat.lt_of_lt_of_le hlt hf)]

/-- An insertion takes the top of the stack, which is an empty slot; where the stack has nothing on
it, it adds a slot. -/
theorem insert_takes (hs : t.Sound) (hf : (t.insert a).2.Addressable) :
    (t.free = [] ∧ (t.insert a).1.index.toNat = t.slots.size ∧
      (t.insert a).2.slots.size = t.slots.size + 1) ∨
    (t.free.head? = some (t.insert a).1.index ∧
      t.slots[(t.insert a).1.index.toNat]? = some ⟨(t.insert a).1.generation, none⟩ ∧
      (t.insert a).2.slots.size = t.slots.size) := by
  obtain ⟨hfree, hsize, he⟩ | ⟨i, rest, g, hfree, hslot, he⟩ := insert_cases hs hf
  · exact .inl ⟨hfree, by simp [he, UInt32.toNat_ofNat_of_lt' hsize], by simp [he]⟩
  · exact .inr ⟨by simp [he, hfree], by simpa [he] using hslot, by simp [he]⟩

/-- A removal takes something out exactly if the handle resolves. -/
theorem live_remove_iff (ht : t.Tallied) (h : Handle) :
    t.contains h = true ↔ (t.remove h).live + 1 = t.live := by
  constructor
  · intro hc
    obtain ⟨a, hg⟩ := contains_iff.mp hc
    exact (live_remove ht hg).1
  · intro hlive
    by_contra hc
    rw [remove_of_not_contains (Bool.not_eq_true _ ▸ hc)] at hlive
    omega

/-- What a removal empties is a slot of the table, and the handle does not resolve again. -/
theorem remove_takes (hs : t.Sound) (hc : t.contains h = true) :
    h.index.toNat < t.slots.size ∧ (t.remove h).contains h = false := by
  obtain ⟨a, hg⟩ := contains_iff.mp hc
  obtain ⟨hlt, -⟩ := Array.getElem?_eq_some_iff.mp (slot_of_get? hg)
  refine ⟨hlt, ?_⟩
  rw [contains, get?_remove hs, if_pos rfl, Option.isSome_none]

end Table

end Handle

open Handle (Change ofParts)

open Handle.Table (Addressable removals)

/-- **The representation of a table.** Let a table begin empty, and let things be put into it,
replaced and removed in any order, also through handles that do not resolve. As long as it is
addressable and no slot has come to the last generation,

* no slot is on the stack of free slots twice, and the slots on it are exactly those that are there
  and empty;
* the generation of a slot is one more than the number of times that the slot was emptied;
* the number that the table keeps is the number of its occupied slots.

So an insertion either finds no slot empty and adds one, or it takes a slot that is there and is
empty, and adds none. A removal takes something out exactly if the handle resolves; it then has a
slot to empty and something to count down from, and otherwise it changes nothing. -/
theorem table_representation {α : Type} {cs : List (Change α)} {t : Handle.Table α}
    (ht : Handle.Table.empty.replay cs = t) (hf : t.Addressable)
    (hgen : ∀ s ∈ t.slots, s.generation ≠ 0xFFFFFFFF) :
    t.free.Nodup ∧
    (∀ i, i ∈ t.free ↔ ∃ g, t.slots[i.toNat]? = some ⟨g, none⟩) ∧
    (∀ (i : UInt32) s, t.slots[i.toNat]? = some s → 1 ≤ s.generation ∧
      s.generation.toNat = 1 + removals (Handle.Table.empty.fates cs) i) ∧
    t.live = t.slots.countP (fun s => s.content.isSome) ∧
    (∀ a, (t.insert a).2.Addressable →
      let i := (t.insert a).1.index
      ((∀ s ∈ t.slots, s.content.isSome = true) ∧ i.toNat = t.slots.size ∧
        (t.insert a).2.slots.size = t.slots.size + 1) ∨
      (t.free.head? = some i ∧ t.slots[i.toNat]? = some ⟨(t.insert a).1.generation, none⟩ ∧
        (t.insert a).2.slots.size = t.slots.size)) ∧
    ∀ h, (t.contains h = true ↔ (t.remove h).live + 1 = t.live) ∧
      (t.contains h = true → h.index.toNat < t.slots.size ∧ (t.remove h).contains h = false) ∧
      (t.contains h = false → t.remove h = t) := by
  have hf₀ : (Handle.Table.empty.replay cs).Addressable := ht ▸ hf
  have hs : t.Sound := ht ▸ Handle.Table.sound_replay Handle.Table.sound_empty hf₀
  have htally : t.Tallied :=
    ht ▸ Handle.Table.tallied_replay Handle.Table.sound_empty hf₀ Handle.Table.tallied_empty
  have hspent : ∀ (i : UInt32) s, t.slots[i.toNat]? = some s → s.generation ≠ 0xFFFFFFFF :=
    fun i s hi => hgen s (Array.mem_of_getElem? hi)
  refine ⟨hs.free_nodup, fun i => ⟨hs.free_empty i, ?_⟩, fun i s hi => ?_, htally, fun a hfa => ?_,
    fun h => ⟨?_, ?_, fun hc => Handle.Table.remove_of_not_contains hc⟩⟩
  · rintro ⟨g, hi⟩
    exact hs.empty_free i g hi (hspent i _ hi)
  · -- a generation that is not the last one is the count itself
    have hcount := Handle.Table.toNat_generationAt_replay Handle.Table.sound_empty hf₀ i
    rw [ht, Handle.Table.generationAt_of_slot hi] at hcount
    have hfirst : ((Handle.Table.empty : Handle.Table α).generationAt i).toNat = 1 := rfl
    have hne : s.generation.toNat ≠ 4294967295 :=
      fun e => hspent i s hi (UInt32.toNat_inj.mp e)
    rw [hfirst] at hcount
    refine ⟨UInt32.le_iff_toNat_le.mpr ?_, ?_⟩
    · rw [UInt32.toNat_one]
      omega
    · omega
  · obtain ⟨hfree, hindex, hsize⟩ | hreuse := Handle.Table.insert_takes hs hfa
    · refine .inl ⟨fun s hmem => ?_, hindex, hsize⟩
      -- an empty slot would be on the stack, and there is none
      rw [Option.isSome_iff_ne_none]
      intro hnone
      obtain ⟨i, hi⟩ := hf.exists_index hmem
      have hempty : t.slots[i.toNat]? = some ⟨s.generation, none⟩ := by rw [hi, ← hnone]
      have hmem := hs.empty_free i s.generation hempty (hgen s hmem)
      rw [hfree] at hmem
      exact absurd hmem List.not_mem_nil
    · exact .inr hreuse
  · exact Handle.Table.live_remove_iff htally h
  · exact Handle.Table.remove_takes hs

/-- A slot that is used again: its first handle is removed twice, the second time in vain, and then
that of its neighbour. -/
def reusedSlot : List (Change ℕ) :=
  [.insert 5, .insert 6, .remove (ofParts 0 1), .remove (ofParts 0 1), .insert 7,
    .remove (ofParts 1 1)]

/-- The slot that was emptied once has the second generation, and the next insertion takes that of
its neighbour. -/
theorem table_representation_reusedSlot :
    let t := Handle.Table.empty.replay reusedSlot
    t.Addressable ∧ (∀ s ∈ t.slots, s.generation ≠ 0xFFFFFFFF) ∧
      removals (Handle.Table.empty.fates reusedSlot) 0 = 1 ∧ 1 ∈ t.free ∧ t.live = 1 ∧
      (t.insert 8).2.slots.size = 2 := by
  intro t
  have hf : t.Addressable := by
    unfold Addressable
    decide +kernel
  have hgen : ∀ s ∈ t.slots, s.generation ≠ 0xFFFFFFFF := by decide +kernel
  obtain ⟨-, hfree, hslot, hlive, hinsert, -⟩ := table_representation rfl hf hgen
  have hsecond : t.slots[(0 : UInt32).toNat]? = some ⟨2, some 7⟩ := rfl
  have hthird : t.slots[(1 : UInt32).toNat]? = some ⟨2, none⟩ := rfl
  refine ⟨hf, hgen, ?_, (hfree 1).mpr ⟨2, hthird⟩, hlive.trans (by decide +kernel), ?_⟩
  · have hcount : 2 = 1 + removals (Handle.Table.empty.fates reusedSlot) 0 :=
      (hslot 0 _ hsecond).2
    omega
  · have hf' : (t.insert 8).2.Addressable := by
      unfold Addressable
      decide +kernel
    obtain ⟨hfull, -⟩ | ⟨-, -, hsize⟩ := hinsert 8 hf'
    · exact absurd (hfull ⟨2, none⟩ (Array.mem_of_getElem? hthird)) (by decide)
    · exact hsize

end NativeBridge
