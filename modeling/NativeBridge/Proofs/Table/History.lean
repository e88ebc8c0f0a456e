import Mathlib.Data.List.Induction
import NativeBridge.Proofs.Table.Sound

/-!
# The history of a handle table

A table changes by insertion, replacement and removal. Replaying changes gives a table, and it
gives the *fates* of handles: which ones were minted, for what, and which ones were removed.

The fates of a table that began empty tell all that can be asked about its handles (`Records`):
no handle is minted twice, and a handle resolves exactly if it was minted and not removed since.
If each replacement keeps a relation between what was there and what is put there, a handle that
resolves addresses something related to what it was minted for.
-/

namespace NativeBridge

namespace Handle

/-- A change of a table. -/
inductive Change (α : Type) where
  | insert (a : α)
  | set (h : Handle) (a : α)
  | remove (h : Handle)

/-- What becomes of a handle. -/
inductive Fate (α : Type) where
  /-- The handle was minted for `a`. -/
  | minted (h : Handle) (a : α)
  /-- What the handle addressed was removed. -/
  | removed (h : Handle)

/-- The handle that was minted. -/
def Fate.minted? {α : Type} : Fate α → Option Handle
  | minted h _ => some h
  | removed _ => none

namespace Table

variable {α : Type} {t : Table α} {h k : Handle} {a b : α} {cs ds : List (Change α)}
  {fs : List (Fate α)} {R : α → α → Prop}

/-- The table after a change. -/
def apply (t : Table α) : Change α → Table α
  | .insert a => (t.insert a).2
  | .set h a => t.set h a
  | .remove h => t.remove h

/-- The table after changes, in order. -/
def replay (t : Table α) (cs : List (Change α)) : Table α := cs.foldl apply t

/-- What becomes of handles by changes, in order. The removal of a handle that does not resolve
is none. -/
def fates (t : Table α) : List (Change α) → List (Fate α)
  | [] => []
  | .insert a :: cs => .minted (t.insert a).1 a :: fates (t.insert a).2 cs
  | .set h a :: cs => fates (t.set h a) cs
  | .remove h :: cs =>
    if t.contains h then .removed h :: fates (t.remove h) cs else fates (t.remove h) cs

/-- Every replacement puts something that `R` relates to what was there. -/
def Keeps (R : α → α → Prop) (t : Table α) : List (Change α) → Prop
  | [] => True
  | .set h b :: cs => (∀ a, t.get? h = some a → R a b) ∧ Keeps R (t.set h b) cs
  | c :: cs => Keeps R (t.apply c) cs

/-! ### Replaying -/

@[simp] theorem replay_nil (t : Table α) : t.replay [] = t := rfl

@[simp] theorem replay_cons (t : Table α) (c : Change α) (cs : List (Change α)) :
    t.replay (c :: cs) = (t.apply c).replay cs := rfl

theorem replay_append (t : Table α) (cs ds : List (Change α)) :
    t.replay (cs ++ ds) = (t.replay cs).replay ds := List.foldl_append

theorem fates_append (t : Table α) (cs ds : List (Change α)) :
    t.fates (cs ++ ds) = t.fates cs ++ (t.replay cs).fates ds := by
  induction cs generalizing t with
  | nil => rfl
  | cons c cs ih =>
    cases c with
    | insert a => simp [fates, ih, apply]
    | set h a => simp [fates, ih, apply]
    | remove h => by_cases hc : t.contains h <;> simp [fates, ih, apply, hc]

theorem keeps_append (t : Table α) (cs ds : List (Change α)) :
    Keeps R t (cs ++ ds) ↔ Keeps R t cs ∧ Keeps R (t.replay cs) ds := by
  induction cs generalizing t with
  | nil => simp [Keeps]
  | cons c cs ih => cases c <;> simp [Keeps, ih, apply, and_assoc]

theorem size_le_size_apply (t : Table α) (c : Change α) :
    t.slots.size ≤ (t.apply c).slots.size := by
  cases c with
  | insert a => exact size_le_size_insert t a
  | set h a => exact Nat.le_of_eq (size_set t h a).symm
  | remove h => exact Nat.le_of_eq (size_remove t h).symm

theorem size_le_size_replay (t : Table α) (cs : List (Change α)) :
    t.slots.size ≤ (t.replay cs).slots.size := by
  induction cs generalizing t with
  | nil => exact Nat.le_refl _
  | cons c cs ih => exact Nat.le_trans (size_le_size_apply t c) (ih _)

theorem Addressable.of_replay (hf : (t.replay cs).Addressable) : t.Addressable :=
  Nat.le_trans (size_le_size_replay t cs) hf

theorem sound_apply (hs : t.Sound) {c : Change α} (hf : (t.apply c).Addressable) :
    (t.apply c).Sound := by
  cases c with
  | insert a => exact sound_insert hs hf
  | set h a => exact sound_set hs h a
  | remove h => exact sound_remove hs h

theorem sound_replay (hs : t.Sound) (hf : (t.replay cs).Addressable) : (t.replay cs).Sound := by
  induction cs generalizing t with
  | nil => exact hs
  | cons c cs ih => exact ih (sound_apply hs (Addressable.of_replay hf)) hf

theorem issued_apply (hs : t.Sound) {c : Change α} (hf : (t.apply c).Addressable)
    (hi : t.Issued h) : (t.apply c).Issued h := by
  cases c with
  | insert a => exact (issued_insert hs hf h).mpr (.inr hi)
  | set k a => exact (issued_set hs k h a).mpr hi
  | remove k => exact (issued_remove hs k h).mpr hi

theorem issued_replay (hs : t.Sound) (hf : (t.replay cs).Addressable) (hi : t.Issued h) :
    (t.replay cs).Issued h := by
  induction cs generalizing t with
  | nil => exact hi
  | cons c cs ih =>
    have hf' : (t.apply c).Addressable := Addressable.of_replay hf
    exact ih (sound_apply hs hf') hf (issued_apply hs hf' hi)

/-- A handle that was issued and does not resolve never resolves again. -/
theorem get?_replay_eq_none (hs : t.Sound) (hf : (t.replay cs).Addressable) (hi : t.Issued h)
    (hg : t.get? h = none) : (t.replay cs).get? h = none := by
  induction cs generalizing t with
  | nil => exact hg
  | cons c cs ih =>
    have hf' : (t.apply c).Addressable := Addressable.of_replay hf
    refine ih (sound_apply hs hf') hf (issued_apply hs hf' hi) ?_
    cases c with
    | insert a =>
      have hne : h ≠ (t.insert a).1 := fun e => not_issued_insert hs hf' (e ▸ hi)
      rw [apply, get?_insert hs hf', if_neg hne, hg]
    | set k a => rw [apply, get?_set]; split <;> simp_all
    | remove k => rw [apply, get?_remove hs]; split <;> simp_all

/-! ### What fates tell -/

/-- The handles minted, in order. -/
def mintedIn (fs : List (Fate α)) : List Handle := fs.filterMap Fate.minted?

/-- The handle was minted, and not removed since. -/
def Surviving (fs : List (Fate α)) (h : Handle) : Prop :=
  ∃ past a later, fs = past ++ .minted h a :: later ∧ .removed h ∉ later

theorem mem_mintedIn : h ∈ mintedIn fs ↔ ∃ a, .minted h a ∈ fs := by
  simp only [mintedIn, List.mem_filterMap]
  constructor
  · rintro ⟨f, hf, hm⟩
    cases f with
    | minted k a =>
      cases hm
      exact ⟨a, hf⟩
    | removed k => cases hm
  · rintro ⟨a, ha⟩
    exact ⟨_, ha, rfl⟩

theorem Surviving.mem_mintedIn (hs : Surviving fs h) : h ∈ mintedIn fs := by
  obtain ⟨past, a, later, rfl, -⟩ := hs
  exact Table.mem_mintedIn.mpr ⟨a, by simp⟩

theorem surviving_append_minted :
    Surviving (fs ++ [.minted k b]) h ↔ h = k ∨ Surviving fs h := by
  constructor
  · rintro ⟨past, a, later, he, hn⟩
    -- the minting of `h` is the last fate, or it is among those before
    rcases List.eq_nil_or_concat later with rfl | ⟨later, f, rfl⟩
    · obtain ⟨-, he⟩ := List.append_inj' he rfl
      simp only [List.cons.injEq, Fate.minted.injEq, and_true] at he
      exact .inl he.1.symm
    · rw [List.concat_eq_append, ← List.cons_append, ← List.append_assoc] at he
      obtain ⟨he, -⟩ := List.append_inj' he rfl
      exact .inr ⟨past, a, later, he, fun hm => hn (by simp [hm])⟩
  · rintro (rfl | ⟨past, a, later, rfl, hn⟩)
    · exact ⟨fs, b, [], by simp, by simp⟩
    · exact ⟨past, a, later ++ [.minted k b], by simp, by simpa using hn⟩

theorem surviving_append_removed :
    Surviving (fs ++ [.removed k]) h ↔ h ≠ k ∧ Surviving fs h := by
  constructor
  · rintro ⟨past, a, later, he, hn⟩
    rcases List.eq_nil_or_concat later with rfl | ⟨later, f, rfl⟩
    · obtain ⟨-, he⟩ := List.append_inj' he rfl
      simp at he
    · rw [List.concat_eq_append, ← List.cons_append, ← List.append_assoc] at he
      obtain ⟨hfs, hf⟩ := List.append_inj' he rfl
      simp only [List.cons.injEq, and_true] at hf
      subst hf
      simp only [List.concat_eq_append, List.mem_append, List.mem_singleton, not_or,
        Fate.removed.injEq] at hn
      exact ⟨hn.2, past, a, later, hfs, hn.1⟩
  · rintro ⟨hne, past, a, later, rfl, hn⟩
    exact ⟨past, a, later ++ [.removed k], by simp, by simp [hn, hne]⟩

theorem mintedIn_append (fs gs : List (Fate α)) :
    mintedIn (fs ++ gs) = mintedIn fs ++ mintedIn gs := List.filterMap_append

/-- A handle that is not minted anew survives what comes later exactly if it is not removed then. -/
theorem surviving_append {gs : List (Fate α)} (hnew : h ∉ mintedIn gs) :
    Surviving (fs ++ gs) h ↔ Surviving fs h ∧ .removed h ∉ gs := by
  induction gs using List.reverseRecOn with
  | nil => simp
  | append_singleton gs f ih =>
    rw [mintedIn_append, List.mem_append, not_or] at hnew
    rw [← List.append_assoc]
    cases f with
    | minted k a =>
      have hne : h ≠ k := by
        rintro rfl
        exact hnew.2 (mem_mintedIn.mpr ⟨a, List.mem_singleton_self _⟩)
      rw [surviving_append_minted, or_iff_right hne, ih hnew.1]
      simp
    | removed k =>
      rw [surviving_append_removed, ih hnew.1]
      simp only [List.mem_append, List.mem_singleton, Fate.removed.injEq, not_or]
      tauto

/-- `fs` are the fates of the handles of `t` since it was empty: what is issued was minted, no
handle was minted twice, what resolves was minted and not removed since, and what a handle
addresses is related to what it was minted for. -/
structure Records (R : α → α → Prop) (fs : List (Fate α)) (t : Table α) : Prop where
  issued : ∀ h, t.Issued h ↔ h ∈ mintedIn fs
  nodup : (mintedIn fs).Nodup
  surviving : ∀ h, t.contains h = true ↔ Surviving fs h
  related : ∀ h a b, .minted h a ∈ fs → t.get? h = some b → R a b

theorem records_empty (R : α → α → Prop) : Records R [] (empty : Table α) where
  issued h := by simp [mintedIn]
  nodup := List.nodup_nil
  surviving h := by simp [contains, Surviving]
  related h a b hm := by cases hm

theorem Records.insert (hr : Records R fs t) (hs : t.Sound) (hrefl : ∀ a, R a a)
    (hf : (t.insert b).2.Addressable) :
    Records R (fs ++ [.minted (t.insert b).1 b]) (t.insert b).2 where
  issued h := by
    rw [issued_insert hs hf, hr.issued]
    simp [mintedIn, Fate.minted?, or_comm]
  nodup := by
    -- what was minted is issued, and the new handle was not
    have hn : (t.insert b).1 ∉ mintedIn fs := fun hm =>
      not_issued_insert hs hf ((hr.issued _).mpr hm)
    simpa [mintedIn, Fate.minted?, List.nodup_append] using
      ⟨hr.nodup, fun k f hf' hk e => hn (by
        simpa [mintedIn] using ⟨f, hf', e ▸ hk⟩)⟩
  surviving h := by
    rw [surviving_append_minted, ← hr.surviving, contains, get?_insert hs hf]
    by_cases hh : h = (t.insert b).1 <;> simp [hh, contains]
  related h c d hm hg := by
    rw [get?_insert hs hf] at hg
    rw [List.mem_append, List.mem_singleton] at hm
    rcases hm with hm | hm
    · have hne : h ≠ (t.insert b).1 := fun e =>
        not_issued_insert hs hf ((hr.issued _).mpr (e ▸ mem_mintedIn.mpr ⟨c, hm⟩))
      rw [if_neg hne] at hg
      exact hr.related h c d hm hg
    · cases hm
      rw [if_pos rfl] at hg
      cases hg
      exact hrefl _

theorem Records.set (hr : Records R fs t) (hs : t.Sound)
    (htrans : ∀ a b c, R a b → R b c → R a c) (hk : ∀ a, t.get? k = some a → R a b) :
    Records R fs (t.set k b) where
  issued h := by rw [issued_set hs, hr.issued]
  nodup := hr.nodup
  surviving h := by
    rw [← hr.surviving, contains, contains, get?_set]
    split
    · next hh => simp [hh]
    · rfl
  related h c d hm hg := by
    rw [get?_set] at hg
    split at hg
    · next hh =>
      subst hh
      obtain ⟨a, ha, rfl⟩ := Option.map_eq_some_iff.mp hg
      exact htrans _ _ _ (hr.related _ _ _ hm ha) (hk a ha)
    · exact hr.related _ _ _ hm hg

theorem Records.remove (hr : Records R fs t) (hs : t.Sound) :
    Records R (fs ++ [.removed k]) (t.remove k) where
  issued h := by
    rw [issued_remove hs, hr.issued]
    simp [mintedIn, Fate.minted?]
  nodup := by
    have he : mintedIn (fs ++ [.removed k]) = mintedIn fs := by simp [mintedIn, Fate.minted?]
    exact he ▸ hr.nodup
  surviving h := by
    rw [surviving_append_removed, ← hr.surviving, contains, get?_remove hs]
    by_cases hh : h = k <;> simp [hh, contains]
  related h c d hm hg := by
    rw [get?_remove hs] at hg
    split at hg
    · cases hg
    · exact hr.related h c d (by simpa using hm) hg

/-- **Replaying records.** Changes extend the record of a table by their fates. -/
theorem Records.replay (hr : Records R fs t) (hs : t.Sound) (hrefl : ∀ a, R a a)
    (htrans : ∀ a b c, R a b → R b c → R a c) (hk : Keeps R t cs)
    (hf : (t.replay cs).Addressable) : Records R (fs ++ t.fates cs) (t.replay cs) := by
  induction cs generalizing t fs with
  | nil => simpa [fates] using hr
  | cons c cs ih =>
    have hf' : (t.apply c).Addressable := Addressable.of_replay hf
    have hs' : (t.apply c).Sound := sound_apply hs hf'
    cases c with
    | insert b =>
      simpa [fates, apply] using ih (hr.insert hs hrefl hf') hs' hk hf
    | set k b =>
      simpa [fates, apply] using ih (hr.set hs htrans hk.1) hs' hk.2 hf
    | remove k =>
      by_cases hc : t.contains k = true
      · simpa [fates, apply, hc] using ih (hr.remove hs (k := k)) hs' hk hf
      · -- the removal of a handle that does not resolve is the fate of none
        have he : t.apply (.remove k) = t := remove_of_not_contains (by simpa using hc)
        have hr' : Records R fs (t.apply (.remove k)) := by rwa [he]
        simpa [fates, hc, apply] using ih hr' hs' hk hf

end Table

end Handle

end NativeBridge
