import Mathlib.Algebra.BigOperators.Group.Finset.Piecewise
import Mathlib.Algebra.Order.BigOperators.Group.Finset
import Mathlib.Data.Fintype.EquivFin
import NativeBridge.Proofs.Table.History

/-!
# Totals over a handle table

The *total* of a weight over a table sums the weight of all that handles address. Each operation
changes one summand: `total_insert`, `total_set` and `total_remove` say how the total changes. The
number of things that a sound table holds is the total of ones (`Counted`).
-/

namespace NativeBridge

namespace Handle

/-- Handles are the words of 64 bits. -/
def equivFin : Handle ≃ Fin (2 ^ 64) where
  toFun h := h.bits.toFin
  invFun i := ⟨UInt64.ofFin i⟩
  left_inv _ := rfl
  right_inv _ := rfl

instance : Finite Handle := Finite.of_equiv _ equivFin.symm

noncomputable instance : Fintype Handle := Fintype.ofFinite Handle

/-- A sum over all handles changes with the one summand that changes. -/
theorem sum_eq_of_eq_off {f g : Handle → ℕ} (h : Handle) (hfg : ∀ k, k ≠ h → f k = g k) :
    ∑ k, f k + g h = ∑ k, g k + f h := by
  have hrest : ∑ k ∈ Finset.univ.erase h, f k = ∑ k ∈ Finset.univ.erase h, g k :=
    Finset.sum_congr rfl fun k hk => hfg k (Finset.ne_of_mem_erase hk)
  rw [← Finset.add_sum_erase _ f (Finset.mem_univ h),
    ← Finset.add_sum_erase _ g (Finset.mem_univ h), hrest]
  omega

namespace Table

variable {α : Type} {t : Table α} {h : Handle} {a b : α}

/-- The sum of a weight over all that handles address. -/
noncomputable def total (t : Table α) (w : α → ℕ) : ℕ := ∑ h, (t.get? h).elim 0 w

@[simp] theorem total_empty (w : α → ℕ) : (empty : Table α).total w = 0 := by
  simp [total]

theorem total_insert (hs : t.Sound) (hf : (t.insert a).2.Addressable) (w : α → ℕ) :
    (t.insert a).2.total w = t.total w + w a := by
  have hn : t.get? (t.insert a).1 = none := by
    refine Option.eq_none_iff_forall_ne_some.mpr fun b hb => ?_
    exact not_issued_insert hs hf (issued_of_get? hs hb)
  have hsum := sum_eq_of_eq_off (f := fun k => ((t.insert a).2.get? k).elim 0 w)
    (g := fun k => (t.get? k).elim 0 w) (t.insert a).1
    fun k hk => by simp only [get?_insert hs hf, if_neg hk]
  simpa [total, hn, get?_insert_self hs hf] using hsum

theorem total_set (hg : t.get? h = some a) (b : α) (w : α → ℕ) :
    (t.set h b).total w + w a = t.total w + w b := by
  have hsum := sum_eq_of_eq_off (f := fun k => ((t.set h b).get? k).elim 0 w)
    (g := fun k => (t.get? k).elim 0 w) h fun k hk => by simp only [get?_set, if_neg hk]
  simpa [total, hg, get?_set] using hsum

theorem total_remove (hs : t.Sound) (hg : t.get? h = some a) (w : α → ℕ) :
    (t.remove h).total w + w a = t.total w := by
  have hsum := sum_eq_of_eq_off (f := fun k => ((t.remove h).get? k).elim 0 w)
    (g := fun k => (t.get? k).elim 0 w) h fun k hk => by simp only [get?_remove hs, if_neg hk]
  simpa [total, hg, get?_remove hs] using hsum

/-- The weight of one thing is part of the total. -/
theorem le_total (hg : t.get? h = some a) (w : α → ℕ) : w a ≤ t.total w := by
  have hle := Finset.single_le_sum (f := fun k => (t.get? k).elim 0 w)
    (fun _ _ => Nat.zero_le _) (Finset.mem_univ h)
  simpa [total, hg] using hle

theorem total_add (t : Table α) (v w : α → ℕ) :
    (t.total fun a => v a + w a) = t.total v + t.total w := by
  rw [total, total, total, ← Finset.sum_add_distrib]
  refine Finset.sum_congr rfl fun k _ => ?_
  cases t.get? k <;> rfl

/-- If exactly the handles of a list address something of weight one, and all others nothing that
has weight, the total is the length of the list. -/
theorem total_eq_length {l : List Handle} (hl : l.Nodup) {w : α → ℕ}
    (hw : ∀ h, (t.get? h).elim 0 w = if h ∈ l then 1 else 0) : t.total w = l.length := by
  have hmem : (Finset.univ.filter fun h => h ∈ l) = l.toFinset := by
    ext h
    simp
  rw [total, Finset.sum_congr rfl fun h _ => hw h, ← Finset.card_filter, hmem,
    List.toFinset_card_of_nodup hl]

/-- What has weight at most one adds up to no more than the number of slots, since no two
handles resolve through the same slot. -/
theorem total_le_size (hs : t.Sound) {w : α → ℕ} (hw : ∀ a, w a ≤ 1) :
    t.total w ≤ t.slots.size := by
  -- the total is at most the number of handles that resolve
  have hcard : t.total w ≤ (Finset.univ.filter fun k => t.contains k = true).card := by
    rw [Finset.card_filter]
    refine Finset.sum_le_sum fun k _ => ?_
    cases hk : t.get? k with
    | none => exact Nat.zero_le _
    | some a => simpa [contains, hk] using hw a
  -- and these have different indices
  have hinj : (Finset.univ.filter fun k => t.contains k = true).card ≤
      (Finset.range t.slots.size).card := by
    refine Finset.card_le_card_of_injOn (fun k => k.index.toNat) (fun k hk => ?_)
      fun k hk l hl he => ?_
    · obtain ⟨a, ha⟩ := contains_iff.mp (Finset.mem_filter.mp hk).2
      obtain ⟨hlt, -⟩ := Array.getElem?_eq_some_iff.mp ((get?_eq_some hs).mp ha)
      exact Finset.mem_coe.mpr (Finset.mem_range.mpr hlt)
    · obtain ⟨a, ha⟩ := contains_iff.mp (Finset.mem_filter.mp hk).2
      obtain ⟨b, hb⟩ := contains_iff.mp (Finset.mem_filter.mp hl).2
      exact eq_of_index_eq hs ha hb (UInt32.toNat_inj.mp he)
  rw [Finset.card_range] at hinj
  exact Nat.le_trans hcard hinj

/-- The number of occupied slots is the number of things that handles address. -/
def Counted (t : Table α) : Prop := t.live = t.total fun _ => 1

theorem counted_empty : (empty : Table α).Counted := (total_empty _).symm

theorem counted_insert (hs : t.Sound) (hf : (t.insert a).2.Addressable) (hc : t.Counted) :
    (t.insert a).2.Counted := by
  have hlive : (t.insert a).2.live = t.live + 1 := by
    unfold insert
    split <;> rfl
  rw [Counted, total_insert hs hf, hlive, hc]

theorem counted_set (h : Handle) (b : α) (hc : t.Counted) : (t.set h b).Counted := by
  cases hg : t.get? h with
  | none => rwa [set_of_not_contains (by simp [contains, hg])]
  | some a =>
    have htotal := total_set hg b fun _ => 1
    rw [Counted, live_set, hc]
    omega

theorem counted_remove (hs : t.Sound) (h : Handle) (hc : t.Counted) : (t.remove h).Counted := by
  cases hg : t.get? h with
  | none => rwa [remove_of_not_contains (by simp [contains, hg])]
  | some a =>
    have htotal := total_remove hs hg fun _ => 1
    have hlive : (t.remove h).live = t.live - 1 := by
      obtain ⟨-, he⟩ | ⟨-, he⟩ := remove_cases hg <;> rw [he]
    rw [Counted, hlive, hc]
    omega

theorem counted_replay (hs : t.Sound) {cs : List (Change α)} (hf : (t.replay cs).Addressable)
    (hc : t.Counted) : (t.replay cs).Counted := by
  induction cs generalizing t with
  | nil => exact hc
  | cons c cs ih =>
    have hf' : (t.apply c).Addressable := Addressable.of_replay hf
    refine ih (sound_apply hs hf') hf ?_
    cases c with
    | insert a => exact counted_insert hs hf' hc
    | set h b => exact counted_set h b hc
    | remove h => exact counted_remove hs h hc

end Table

end Handle

end NativeBridge
