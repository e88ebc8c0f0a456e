import NativeBridge.Proofs.Machine.Lookup

/-!
# Objects under moves

What becomes of the object that a handle addresses. No move turns an object into another one, and
only the moves that are about a block or a module change it (`Move.object_apply`,
`Moves.object_after`).
-/

namespace NativeBridge

open Handle.Table (Addressable Sound Keeps)

variable {σ : Type}

/-! ### What objects keep -/

/-- The object `b` is what has become of `a`: a scalar and a function are the same, a block is still
a block, and a module has its name, its top-level code once there is any, and all functions that
it had. -/
def Object.Becomes : Object σ → Object σ → Prop
  | .scalar s, b => b = .scalar s
  | .function f, b => b = .function f
  | .block _, b => ∃ c, b = .block c
  | .module m, b => ∃ n : Module, b = .module n ∧ n.name = m.name ∧
      (m.init = Handle.null ∨ n.init = m.init) ∧
      ∀ name f, m.functions.get? name = some f → n.functions.get? name = some f

theorem Object.Becomes.refl (a : Object σ) : a.Becomes a := by
  cases a with
  | scalar s => rfl
  | function f => rfl
  | block b => exact ⟨b, rfl⟩
  | module m => exact ⟨m, rfl, rfl, .inr rfl, fun _ _ h => h⟩

theorem Object.Becomes.trans {a b c : Object σ} (hab : a.Becomes b) (hbc : b.Becomes c) :
    a.Becomes c := by
  cases a with
  | scalar s => obtain rfl := hab; exact hbc
  | function f => obtain rfl := hab; exact hbc
  | block d => obtain ⟨e, rfl⟩ := hab; exact hbc
  | module m =>
    obtain ⟨n, rfl, hname, hinit, hfun⟩ := hab
    obtain ⟨k, rfl, hname', hinit', hfun'⟩ := hbc
    refine ⟨k, rfl, hname'.trans hname, ?_, fun name f h => hfun' name f (hfun name f h)⟩
    rcases hinit with hinit | hinit
    · exact .inl hinit
    · exact hinit' |>.imp (fun h => hinit ▸ h) fun h => h.trans hinit

/-- What has become a block was one. -/
theorem Object.Becomes.eq_block {a : Object σ} {b : Heap.Block} (hab : a.Becomes (.block b)) :
    ∃ old, a = .block old := by
  cases a with
  | block old => exact ⟨old, rfl⟩
  | scalar s => cases hab
  | function f => cases hab
  | module m => obtain ⟨n, hn, -⟩ := hab; cases hn

/-- A module keeps its functions when one is added under a new name. -/
theorem Object.becomes_addFunction {m : Module} {name : String}
    (hnew : m.functions.get? name = none) (f : Handle) :
    (Object.module m : Object σ).Becomes
      (.module { m with functions := m.functions.set name f }) := by
  refine ⟨_, rfl, rfl, .inr rfl, fun n g hg => ?_⟩
  have hne : n ≠ name := fun e => by rw [e, hnew] at hg; cases hg
  rw [Dict.get?_set, if_neg hne, hg]

namespace Move

theorem keeps_edit {t : Handle.Table (Object σ)} {h : Handle} {f : Heap.Block → Heap.Block} :
    Keeps Object.Becomes t (edit t h f) := by
  unfold edit
  split
  · next b hb =>
    refine ⟨fun a ha => ?_, trivial⟩
    rw [hb] at ha
    cases ha
    exact ⟨f b, rfl⟩
  · trivial

/-- No replacement that a move makes turns an object into another one. -/
theorem keeps_changes {x : Holdings σ} {m : Move σ} (hs : x.table.Sound) (hm : m.Allowed x)
    (hf : (m.apply x).table.Addressable) : Keeps Object.Becomes x.table (m.changes x.table) := by
  cases m with
  | createModule name =>
    refine ⟨fun a ha => ?_, trivial⟩
    have hblank := (get?_newModule hs hf).symm.trans ha
    cases hblank
    exact ⟨_, rfl, rfl, .inl rfl, fun n f hn => by simp at hn⟩
  | addFunction module name argc body =>
    obtain ⟨-, md, hmd, hnew⟩ := hm
    rw [changes_addFunction hs hmd hf]
    refine ⟨fun a ha => ?_, trivial⟩
    have hmod := (get?_module_insert hs hmd hf).1.symm.trans ha
    cases hmod
    exact Object.becomes_addFunction hnew _
  | resize h size => exact keeps_edit
  | write h offset value => exact keeps_edit
  | protect h offset p => exact keeps_edit
  | _ => trivial

/-- The move is about the block or the module that `h` addresses. -/
def Touches (h : Handle) : Object σ → Move σ → Prop
  | .block _, resize k _ => k = h
  | .block _, write k _ _ => k = h
  | .block _, protect k _ _ => k = h
  | .module _, addFunction module _ _ _ => module = h
  | _, _ => False

theorem Touches.of_becomes {h : Handle} {a b : Object σ} {m : Move σ} (hm : m.Touches h b)
    (hab : a.Becomes b) : m.Touches h a := by
  cases a with
  | scalar s => obtain rfl := hab; exact hm
  | function f => obtain rfl := hab; exact hm
  | block d => obtain ⟨e, rfl⟩ := hab; cases m <;> exact hm
  | module md => obtain ⟨n, rfl, -⟩ := hab; cases m <;> exact hm

/-- **Moves keep objects.** What a handle addressed before a move it addresses afterwards, or it is
stale. The object is changed only by moves that are about it. -/
theorem object_apply {x : Holdings σ} {m : Move σ} (hs : x.table.Sound) (hm : m.Allowed x)
    (hf : (m.apply x).table.Addressable) {h : Handle} {a : Object σ}
    (hg : x.table.get? h = some a) :
    (m.apply x).table.get? h = none ∨ ∃ b, (m.apply x).table.get? h = some b ∧ a.Becomes b ∧
      (b = a ∨ m.Touches h a) := by
  have hissued := Handle.Table.issued_of_get? hs hg
  -- there are two ways to go on: the handle is left alone, or its block is edited
  have hkept : (m.apply x).table.get? h = x.table.get? h →
      ∃ b, (m.apply x).table.get? h = some b ∧ a.Becomes b ∧ (b = a ∨ m.Touches h a) :=
    fun he => ⟨a, he.trans hg, .refl a, .inl rfl⟩
  have hedit : ∀ f : Heap.Block → Heap.Block, ∀ k b, x.table.get? k = some (.block b) →
      (m.apply x).table = x.table.replay (edit x.table k f) →
      (k = h → m.Touches h (.block b)) →
      ∃ b, (m.apply x).table.get? h = some b ∧ a.Becomes b ∧ (b = a ∨ m.Touches h a) := by
    intro f k b hb htable htouch
    have hget := get?_edit hb f h
    rw [← htable] at hget
    by_cases hk : h = k
    · rw [if_pos hk] at hget
      rw [← hk, hg] at hb
      cases hb
      exact ⟨_, hget, ⟨f b, rfl⟩, .inr (htouch hk.symm)⟩
    · rw [if_neg hk] at hget
      exact hkept hget
  cases m with
  | mint id s =>
    have hne := Handle.Table.ne_of_issued hissued (Handle.Table.not_issued_insert hs hf)
    exact .inr (hkept ((get?_mint hs hf h).trans (if_neg hne)))
  | alloc size =>
    have hne := Handle.Table.ne_of_issued hissued (Handle.Table.not_issued_insert hs hf)
    exact .inr (hkept ((get?_alloc hs hf h).trans (if_neg hne)))
  | release k =>
    by_cases hk : h = k
    · exact .inl ((get?_release hs k h).trans (if_pos hk))
    · exact .inr (hkept ((get?_release hs k h).trans (if_neg hk)))
  | free k =>
    by_cases hk : h = k
    · exact .inl ((get?_free hs k h).trans (if_pos hk))
    · exact .inr (hkept ((get?_free hs k h).trans (if_neg hk)))
  | resize k size =>
    obtain ⟨-, b, hb, -⟩ := hm
    exact .inr (hedit _ k b hb rfl id)
  | write k offset value =>
    obtain ⟨-, b, c, hb, -⟩ := hm
    exact .inr (hedit _ k b hb rfl id)
  | protect k offset p =>
    obtain ⟨b, c, hb, -⟩ := hm
    exact .inr (hedit _ k b hb rfl id)
  | createModule name =>
    obtain ⟨hnew, hinit, -, -, hget⟩ := get?_createModule hs hf
    refine .inr (hkept ((hget h).trans ?_))
    rw [if_neg (Handle.Table.ne_of_issued hissued hnew),
      if_neg (Handle.Table.ne_of_issued hissued hinit)]
  | addFunction module name argc body =>
    obtain ⟨-, md, hmd, hnewname⟩ := hm
    obtain ⟨hnew, -, hget⟩ := get?_addFunction hs hmd hf
    by_cases hh : h = module
    · rw [← hh, hg] at hmd
      cases hmd
      exact .inr ⟨_, (hget h).trans (if_pos hh), Object.becomes_addFunction hnewname _,
        .inr hh.symm⟩
    · refine .inr (hkept ((hget h).trans ?_))
      rw [if_neg hh, if_neg (Handle.Table.ne_of_issued hissued hnew)]
  | openScope site => exact .inr (hkept rfl)
  | closeScope id => exact .inr (hkept rfl)

/-- What a handle that was issued addresses after a move has become of what it addressed before. -/
theorem object_before {x : Holdings σ} {m : Move σ} (hs : x.table.Sound) (hm : m.Allowed x)
    (hf : (m.apply x).table.Addressable) {h : Handle} (hissued : x.table.Issued h) {b : Object σ}
    (hb : (m.apply x).table.get? h = some b) :
    ∃ a, x.table.get? h = some a ∧ a.Becomes b := by
  cases ha : x.table.get? h with
  | none =>
    have hnone : (m.apply x).table.get? h = none :=
      Handle.Table.get?_replay_eq_none hs hf hissued ha
    cases hb.symm.trans hnone
  | some a =>
    rcases object_apply hs hm hf ha with hnone | ⟨c, hc, hac, -⟩
    · cases hb.symm.trans hnone
    · cases hb.symm.trans hc
      exact ⟨a, rfl, hac⟩

end Move

namespace Moves

variable {x : Holdings σ} {ms : List (Move σ)}

theorem keeps_changes (hm : Moves x ms) (hs : x.table.Sound)
    (hf : (x.after ms).table.Addressable) : Keeps Object.Becomes x.table (x.changes ms) := by
  induction ms generalizing x with
  | nil => trivial
  | cons m ms ih =>
    have hf' := Holdings.addressable_of_after (x := m.apply x) hf
    rw [Holdings.changes, Handle.Table.keeps_append]
    exact ⟨Move.keeps_changes hs hm.1 hf', ih hm.2 (Handle.Table.sound_replay hs hf') hf⟩

/-- Moves keep objects, as single moves do. -/
theorem object_after (hm : Moves x ms) (hs : x.table.Sound)
    (hf : (x.after ms).table.Addressable) {h : Handle} {a : Object σ}
    (hg : x.table.get? h = some a) :
    (x.after ms).table.get? h = none ∨ ∃ b, (x.after ms).table.get? h = some b ∧ a.Becomes b ∧
      (b = a ∨ ∃ m ∈ ms, m.Touches h a) := by
  induction ms generalizing x a with
  | nil => exact .inr ⟨a, hg, .refl a, .inl rfl⟩
  | cons m ms ih =>
    have hf' := Holdings.addressable_of_after (x := m.apply x) hf
    have hs' : (m.apply x).table.Sound := Handle.Table.sound_replay hs hf'
    rcases Move.object_apply hs hm.1 hf' hg with hnone | ⟨b, hb, hab, hchange⟩
    · -- a handle that has become stale stays so
      have hissued : (m.apply x).table.Issued h :=
        Handle.Table.issued_replay hs hf' (Handle.Table.issued_of_get? hs hg)
      rw [Holdings.after_cons, Holdings.table_after] at hf ⊢
      exact .inl (Handle.Table.get?_replay_eq_none hs' hf hissued hnone)
    · rcases ih hm.2 hs' hf hb with hnone | ⟨c, hc, hbc, hchange'⟩
      · exact .inl hnone
      · refine .inr ⟨c, hc, hab.trans hbc, ?_⟩
        rcases hchange' with rfl | ⟨m', hm', htouch⟩
        · exact hchange.imp id fun htouch => ⟨m, List.mem_cons_self, htouch⟩
        · exact .inr ⟨m', List.mem_cons_of_mem _ hm', htouch.of_becomes hab⟩

end Moves

end NativeBridge
