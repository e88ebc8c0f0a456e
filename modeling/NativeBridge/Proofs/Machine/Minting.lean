import NativeBridge.Proofs.Census

/-!
# Native code that mints

Native code that does nothing but mint scalars through its scope and return a handle (`Minting`).
The handles that it gets are new, and everything else addresses what it did before
(`Minting.get?_run`). When its scope is closed, the scalars are gone, and with them every trace of
the code in what handles address (`Minting.get?_closeScope`), although the table itself may have
more slots than before and other generations in them.
-/

namespace NativeBridge

open Handle (Table)

open Handle.Table (Addressable Counted Sound)

variable {σ : Type}

/-- Tables in which all handles address the same have the same number of occupied slots. -/
theorem Handle.Table.live_eq_of_get?_eq {α : Type} {t t' : Table α} (hc : t.Counted)
    (hc' : t'.Counted) (hget : ∀ h, t'.get? h = t.get? h) : t'.live = t.live := by
  rw [hc, hc', total, total]
  exact Finset.sum_congr rfl fun h _ => by rw [hget]

/-- Native code that mints scalars and then returns a handle. What it mints next, and what it
returns, may depend on the handles that it got. -/
inductive Minting where
  | done (h : Handle)
  | mint (s : Scalar) (next : Handle → Minting)

namespace Minting

/-- The program, which mints through the scope `id`. -/
def program (id : ScopeId) : Minting → Program σ .native
  | done h => .done (NativeAnswer.returned h)
  | mint s next => .within id (.mint s) fun (h : Handle) => (next h).program id

/-- The handle that the code returns and the table that it leaves. -/
def run (t : Table (Object σ)) : Minting → Handle × Table (Object σ)
  | done h => (h, t)
  | mint s next => (next (t.insert (.scalar s)).1).run (t.insert (.scalar s)).2

/-- The handles that the code gets, in order. -/
def minted (t : Table (Object σ)) : Minting → List Handle
  | done _ => []
  | mint s next =>
    (t.insert (.scalar s)).1 ::
      (next (t.insert (.scalar s)).1).minted (t.insert (.scalar s)).2

theorem addressable_of_run {m : Minting} {t : Table (Object σ)}
    (hf : (m.run t).2.Addressable) : t.Addressable := by
  induction m generalizing t with
  | done h => exact hf
  | mint s next ih =>
    have hsize := t.size_le_size_insert (.scalar s)
    exact hsize.trans (ih _ hf)

theorem sound_run {m : Minting} {t : Table (Object σ)} (hs : t.Sound)
    (hf : (m.run t).2.Addressable) : (m.run t).2.Sound := by
  induction m generalizing t with
  | done h => exact hs
  | mint s next ih => exact ih _ (Table.sound_insert hs (addressable_of_run hf)) hf

theorem counted_run {m : Minting} {t : Table (Object σ)} (hs : t.Sound)
    (hf : (m.run t).2.Addressable) (hc : t.Counted) : (m.run t).2.Counted := by
  induction m generalizing t with
  | done h => exact hc
  | mint s next ih =>
    have hf' := addressable_of_run (m := next (t.insert (.scalar s)).1) hf
    exact ih _ (Table.sound_insert hs hf') hf (Table.counted_insert hs hf' hc)

/-- What is minted is a new scalar, and all else is as it was. -/
theorem get?_run {m : Minting} {t : Table (Object σ)} (hs : t.Sound)
    (hf : (m.run t).2.Addressable) (k : Handle) :
    (k ∈ m.minted t → t.get? k = none ∧ ∃ s, (m.run t).2.get? k = some (.scalar s)) ∧
      (k ∉ m.minted t → (m.run t).2.get? k = t.get? k) := by
  induction m generalizing t with
  | done h => exact ⟨fun hk => (nomatch hk), fun _ => rfl⟩
  | mint s next ih =>
    have hf' := addressable_of_run (m := next (t.insert (.scalar s)).1) hf
    have hget := Table.get?_insert hs hf' k
    obtain ⟨hin, hout⟩ := ih _ (Table.sound_insert hs hf') hf
    have hnew : t.get? (t.insert (.scalar s)).1 = none := by
      refine Option.eq_none_iff_forall_ne_some.mpr fun o ho => ?_
      exact Table.not_issued_insert hs hf' (Table.issued_of_get? hs ho)
    simp only [minted, List.mem_cons, not_or]
    refine ⟨fun hk => ?_, fun ⟨hne, hk⟩ => ?_⟩
    · by_cases hfirst : k = (t.insert (.scalar s)).1
      · -- a handle that is taken is not minted once more
        rw [if_pos hfirst] at hget
        have hlater : k ∉ (next (t.insert (.scalar s)).1).minted (t.insert (.scalar s)).2 := by
          intro hk'
          rw [(hin hk').1] at hget
          cases hget
        exact ⟨hfirst ▸ hnew, s, (hout hlater).trans hget⟩
      · rw [if_neg hfirst] at hget
        obtain ⟨hnone, hscalar⟩ := hin (hk.resolve_left hfirst)
        exact ⟨hget ▸ hnone, hscalar⟩
    · rw [if_neg hne] at hget
      exact (hout hk).trans hget

/-- The program runs to its end and leaves the handles that it got with its scope. -/
theorem eval_program (enter : Enter σ) (m : Minting) {id : ScopeId} {frame : Frame σ}
    (hheld : frame.holds id = true) {vm : Vm σ} {scope : Scope}
    (hid : vm.scopes.get? id = some scope) :
    ∃ scopes : Dict ScopeId Scope,
      (∀ k, scopes.get? k =
        if k = id then some { scope with locals := scope.locals ++ m.minted vm.table }
        else vm.scopes.get? k) ∧
      (m.program id).eval enter frame vm =
        .finished ((NativeAnswer.returned (m.run vm.table).1 : Answer .native), frame)
          { vm with table := (m.run vm.table).2, scopes := scopes } := by
  induction m generalizing vm scope with
  | done h =>
    refine ⟨vm.scopes, fun k => ?_, rfl⟩
    split
    · next hk => simp [hk, hid, minted]
    · rfl
  | mint s next ih =>
    have hscope : frame.scope? vm id = some scope := by simp [Frame.scope?, hheld, hid]
    have hmint : vm.mint id (.scalar s) =
        ((vm.table.insert (.scalar s)).1,
          { vm with
            table := (vm.table.insert (.scalar s)).2
            scopes := vm.scopes.set id
              { scope with locals := scope.locals ++ [(vm.table.insert (.scalar s)).1] } }) := by
      simp [Vm.mint, Vm.addLocal, hid]
    have hstep : (program id (.mint s next)).eval enter frame vm =
        ((next (vm.mint id (.scalar s)).1).program id).eval enter frame
          (vm.mint id (.scalar s)).2 := by
      rw [program]
      conv_lhs => unfold Program.eval
      rw [hscope]
      rfl
    have hnext : (vm.mint id (.scalar s)).2.scopes.get? id =
        some { scope with locals := scope.locals ++ [(vm.table.insert (.scalar s)).1] } := by
      simp [hmint]
    obtain ⟨scopes, hscopes, heval⟩ := ih (vm.mint id (.scalar s)).1 hnext
    rw [hmint] at hstep hscopes heval
    refine ⟨scopes, fun k => (hscopes k).trans ?_, ?_⟩
    · split
      · simp [minted]
      · next hk => simp [hk]
    · exact hstep.trans heval

/-- **Minting leaves no trace.** When the scope is closed, all handles address what they did before
the code ran. -/
theorem get?_closeScope {m : Minting} {vm vm' : Vm σ} {id : ScopeId} {scope : Scope}
    (hs : vm.table.Sound) (htable : vm'.table = (m.run vm.table).2)
    (hid : vm'.scopes.get? id = some scope) (hlocals : scope.locals = m.minted vm.table)
    (hf : vm'.table.Addressable) (k : Handle) :
    (vm'.closeScope id).table.get? k = vm.table.get? k := by
  rw [htable] at hf
  have hs' : vm'.table.Sound := htable ▸ sound_run hs hf
  have hmoves : vm'.closeMoves id = Vm.releases vm'.table scope.locals ++ [.closeScope id] := by
    rw [Vm.closeMoves, hid]
  have hclosed : (vm'.closeScope id).table.get? k =
      (vm'.holdings.after (Vm.releases vm'.table scope.locals)).table.get? k := by
    rw [← Vm.table_holdings, Vm.holdings_closeScope, hmoves, Holdings.after_append]
    rfl
  obtain ⟨hin, hout⟩ := get?_run hs hf k
  rw [hclosed]
  refine ((Vm.get?_after_releases (x := vm'.holdings) hs').2 k).trans ?_
  rw [Vm.table_holdings, htable, hlocals]
  by_cases hk : k ∈ m.minted vm.table
  · obtain ⟨hnone, s, hscalar⟩ := hin hk
    simp [hscalar, hnone, hk]
  · rw [hout hk]
    split <;> simp_all

end Minting

end NativeBridge
