import NativeBridge.Proofs.Machine.Journal
import NativeBridge.Proofs.Ownership

/-!
# Closing scopes

A scope that is closed ends the life of those of its locals that are still live, and of nothing else
(`scope_closing`). A local that was released before is not touched again, whatever has taken its
slot in the meantime: the slot has another generation by then, and only scalars are released in any
case. So it does not matter in which order two scopes are closed.

Everything follows from what the handles address afterwards (`Vm.object?_closeScope_eq`).
-/

namespace NativeBridge

open Handle.Table (Addressable Counted Sound)

variable {σ : Type} {vm : Vm σ} {id : ScopeId} {scope : Scope} {k : Handle}

/-- The locals of a scope that are still live. -/
def Scope.liveLocals (scope : Scope) (vm : Vm σ) : List Handle := scope.locals.filter vm.isLive

theorem Scope.mem_liveLocals : k ∈ scope.liveLocals vm ↔ k ∈ scope.locals ∧ vm.isLive k = true :=
  List.mem_filter

/-- What handles of a list address are scalars, if they address anything. -/
def Vm.HoldsScalars (vm : Vm σ) (hs : List Handle) : Prop :=
  ∀ k ∈ hs, ∀ o, vm.object? k = some o → ∃ s, o = .scalar s

/-- The locals of an open scope are scalars for all their life. -/
theorem Owned.holdsScalars {log : MintLog} (hx : Owned log vm.holdings)
    (hid : vm.scopes.get? id = some scope) : vm.HoldsScalars scope.locals := by
  intro k hk o ho
  rw [hx.locals id scope hid, MintLog.mem_through] at hk
  exact hx.scalar _ hk o ho

namespace Vm

/-! ### Releases -/

theorem release_of_scalar {s : Scalar} (hk : vm.object? k = some (.scalar s)) :
    vm.release k = (true, { vm with table := vm.table.remove k }) := by
  simp [release, hk]

theorem release_of_eq_none (hk : vm.object? k = none) : vm.release k = (false, vm) := by
  simp [release, hk]

/-- What is released are the handles that are live, and so many are live no more. -/
theorem releaseAll_eq_length (vm : Vm σ) (ht : vm.table.Sound) (hc : vm.table.Counted)
    {hs : List Handle} (hnodup : hs.Nodup) (hscalars : vm.HoldsScalars hs) :
    (vm.releaseAll hs).1 = (hs.filter vm.isLive).length ∧
      vm.table.live = (vm.releaseAll hs).2.table.live + (hs.filter vm.isLive).length := by
  induction hs generalizing vm with
  | nil => exact ⟨rfl, rfl⟩
  | cons h hs ih =>
    obtain ⟨hnew, hnodup'⟩ := List.nodup_cons.mp hnodup
    cases hh : vm.object? h with
    | none =>
      have hdead : ¬ vm.isLive h = true := by simp [isLive_eq_isSome, hh]
      have hrest := ih vm ht hc hnodup' fun k hk => hscalars k (List.mem_cons_of_mem _ hk)
      rw [List.filter_cons_of_neg hdead, releaseAll, release_of_eq_none hh]
      exact hrest
    | some o =>
      obtain ⟨s, rfl⟩ := hscalars h List.mem_cons_self o hh
      have hlive : vm.isLive h = true := Handle.Table.contains_iff.mpr ⟨_, hh⟩
      -- the handles behind `h` address what they did, since `h` is not among them
      have hget : ∀ k ∈ hs, (vm.table.remove h).get? k = vm.table.get? k := by
        intro k hk
        have hne : k ≠ h := fun e => hnew (e ▸ hk)
        rw [Handle.Table.get?_remove ht, if_neg hne]
      have hfilter : hs.filter { vm with table := vm.table.remove h }.isLive =
          hs.filter vm.isLive :=
        List.filter_congr fun k hk => congrArg Option.isSome (hget k hk)
      have hone : vm.table.live = (vm.table.remove h).live + 1 := by
        have htotal := Handle.Table.total_remove ht hh fun _ => 1
        rw [← hc, ← Handle.Table.counted_remove ht h hc] at htotal
        exact htotal.symm
      obtain ⟨hcount, hrest⟩ := ih { vm with table := vm.table.remove h }
        (Handle.Table.sound_remove ht h) (Handle.Table.counted_remove ht h hc) hnodup'
        fun k hk o ho => hscalars k (List.mem_cons_of_mem _ hk) o ((hget k hk).symm.trans ho)
      rw [hfilter] at hcount hrest
      rw [List.filter_cons_of_pos hlive, List.length_cons, releaseAll, release_of_scalar hh]
      refine ⟨congrArg (· + 1) hcount, ?_⟩
      rw [hone, ← Nat.add_assoc]
      exact congrArg (· + 1) hrest

/-! ### The machine after closing -/

theorem sound_closeScope (ht : vm.table.Sound) (id : ScopeId) : (vm.closeScope id).table.Sound := by
  rw [← table_holdings, holdings_closeScope, closeMoves]
  split
  · exact ht
  · rw [Holdings.after_append]
    exact (get?_after_releases (x := vm.holdings) ht).1

/-- After a scope was closed, its locals address nothing and all other handles what they did. -/
theorem object?_closeScope_eq (ht : vm.table.Sound) (hid : vm.scopes.get? id = some scope)
    (hscalars : vm.HoldsScalars scope.locals) (k : Handle) :
    (vm.closeScope id).object? k = if k ∈ scope.locals then none else vm.object? k := by
  have hclosed : (vm.closeScope id).object? k =
      (vm.holdings.after (releases vm.holdings.table scope.locals)).table.get? k := by
    rw [object?, ← table_holdings, holdings_closeScope, closeMoves, hid]
    dsimp only
    rw [Holdings.after_append]
    rfl
  refine hclosed.trans (((get?_after_releases ht).2 k).trans ?_)
  cases hk : vm.holdings.table.get? k with
  | none => simp [show vm.object? k = none from hk]
  | some o =>
    have ho : vm.object? k = some o := hk
    by_cases hmem : k ∈ scope.locals
    · obtain ⟨s, rfl⟩ := hscalars k hmem o ho
      simp [hmem]
    · cases o <;> simp [hmem, ho]

/-- Closing a scope changes the table, removes the scope, and logs how many of its locals died,
if it has any. -/
theorem closeScope_eq_of_get? (ht : vm.table.Sound) (hc : vm.table.Counted)
    (hid : vm.scopes.get? id = some scope) (hnodup : scope.locals.Nodup)
    (hscalars : vm.HoldsScalars scope.locals) :
    vm.closeScope id =
      { vm with
        table := (vm.closeScope id).table
        scopes := vm.scopes.erase id
        journal :=
          if scope.locals.isEmpty then vm.journal
          else vm.journal.push (.scalarsReleased scope.function (scope.liveLocals vm).length) } ∧
      vm.table.live = (vm.closeScope id).table.live + (scope.liveLocals vm).length := by
  obtain ⟨hcount, hlive⟩ := releaseAll_eq_length { vm with scopes := vm.scopes.erase id }
    ht hc hnodup hscalars
  simp only [closeScope, hid]
  split
  · next hnil => exact ⟨rfl, by simp [Scope.liveLocals, List.isEmpty_iff.mp hnil]⟩
  · refine ⟨?_, hlive⟩
    rw [hcount, record, releaseAll_eq]
    rfl

end Vm

namespace Owned

variable {log : MintLog}

/-- Closing a scope makes its locals, and nothing else, address nothing. -/
theorem object?_closeScope (hx : Owned log vm.holdings) (ht : vm.table.Sound)
    (hid : vm.scopes.get? id = some scope) (k : Handle) :
    (vm.closeScope id).object? k = if k ∈ scope.locals then none else vm.object? k :=
  Vm.object?_closeScope_eq ht hid (hx.holdsScalars hid) k

/-- What is not a live local of the scope is no local at all, or it addressed nothing before. -/
theorem object?_closeScope_of_not_mem (hx : Owned log vm.holdings) (ht : vm.table.Sound)
    (hid : vm.scopes.get? id = some scope) (hk : k ∉ scope.liveLocals vm) :
    (vm.closeScope id).object? k = vm.object? k := by
  rw [hx.object?_closeScope ht hid]
  split
  · next hmem =>
    have hdead : ¬ vm.isLive k = true := fun hl => hk (Scope.mem_liveLocals.mpr ⟨hmem, hl⟩)
    exact (Option.not_isSome_iff_eq_none.mp hdead).symm
  · rfl

/-- Exactly the live locals stop to resolve. -/
theorem mem_liveLocals_iff (hx : Owned log vm.holdings) (ht : vm.table.Sound)
    (hid : vm.scopes.get? id = some scope) :
    k ∈ scope.liveLocals vm ↔ vm.isLive k = true ∧ (vm.closeScope id).isLive k = false := by
  constructor
  · intro hk
    obtain ⟨hmem, hl⟩ := Scope.mem_liveLocals.mp hk
    refine ⟨hl, ?_⟩
    rw [Vm.isLive_eq_isSome, hx.object?_closeScope ht hid, if_pos hmem]
    rfl
  · rintro ⟨hl, hdied⟩
    by_contra hk
    rw [Vm.isLive_eq_isSome, hx.object?_closeScope_of_not_mem ht hid hk, ← Vm.isLive_eq_isSome,
      hl] at hdied
    cases hdied

/-- No handle was minted through two scopes. -/
theorem not_mem_locals (hx : Owned log vm.holdings) (hid : vm.scopes.get? id = some scope)
    {id' : ScopeId} {scope' : Scope} (hid' : vm.scopes.get? id' = some scope') (hne : id' ≠ id)
    (hk : k ∈ scope'.locals) : k ∉ scope.locals := by
  intro hmem
  rw [hx.locals id scope hid, MintLog.mem_through] at hmem
  rw [hx.locals id' scope' hid', MintLog.mem_through] at hk
  exact hne (MintLog.scope_unique hx.nodup hk hmem)

/-- When two scopes were closed, the locals of both address nothing. -/
theorem object?_closeScope_closeScope (hx : Owned log vm.holdings) (ht : vm.table.Sound)
    (hid : vm.scopes.get? id = some scope) {id' : ScopeId} {scope' : Scope}
    (hid' : vm.scopes.get? id' = some scope') (hne : id' ≠ id) (k : Handle) :
    ((vm.closeScope id).closeScope id').object? k =
      if k ∈ scope'.locals then none else if k ∈ scope.locals then none else vm.object? k := by
  have hopen : (vm.closeScope id).scopes.get? id' = some scope' := by
    rw [Vm.scopes_closeScope, if_neg hne, hid']
  have hscalars : (vm.closeScope id).HoldsScalars scope'.locals := by
    intro k hk o ho
    rw [hx.object?_closeScope ht hid, if_neg (hx.not_mem_locals hid hid' hne hk)] at ho
    exact hx.holdsScalars hid' k hk o ho
  rw [Vm.object?_closeScope_eq (Vm.sound_closeScope ht id) hopen hscalars,
    hx.object?_closeScope ht hid]

end Owned

/-- **Closing a scope.** In every state that a machine reaches, closing an open scope

* makes exactly those of its locals stop to resolve that are live;
* leaves all other handles with what they address, among them the modules, the functions and the
  blocks with their contents, and the locals of all other scopes, which stay open as they are;
* changes nothing else but the log, which tells how many handles died if the scope has any locals,
  and the number of live handles, which falls by as many.

If two open scopes are closed, the same handles address the same objects afterwards in either
order. -/
theorem scope_closing {options : Options} {memory : σ} {past : List (Step σ)}
    (hpast : Steps (Vm.new options memory) past vm) (hf : vm.table.Addressable)
    (hid : vm.scopes.get? id = some scope) :
    (∀ k, k ∈ scope.liveLocals vm ↔ vm.isLive k = true ∧ (vm.closeScope id).isLive k = false) ∧
    (∀ k, k ∉ scope.liveLocals vm → (vm.closeScope id).object? k = vm.object? k) ∧
    (∀ k o, vm.object? k = some o → (∀ s, o ≠ .scalar s) →
      (vm.closeScope id).object? k = some o) ∧
    (∀ id' scope', id' ≠ id → vm.scopes.get? id' = some scope' →
      (vm.closeScope id).scopes.get? id' = some scope' ∧
      ∀ k ∈ scope'.locals, (vm.closeScope id).object? k = vm.object? k) ∧
    vm.closeScope id =
      { vm with
        table := (vm.closeScope id).table
        scopes := vm.scopes.erase id
        journal :=
          if scope.locals.isEmpty then vm.journal
          else vm.journal.push (.scalarsReleased scope.function (scope.liveLocals vm).length) } ∧
    vm.usage.liveHandles = (vm.closeScope id).usage.liveHandles + (scope.liveLocals vm).length ∧
    ∀ id' scope', id' ≠ id → vm.scopes.get? id' = some scope' → ∀ k,
      ((vm.closeScope id).closeScope id').object? k =
        ((vm.closeScope id').closeScope id).object? k := by
  have ht := hpast.sound (Vm.sound_new options memory) hf
  have howned := hpast.owned hf
  have hnodup : scope.locals.Nodup := by
    rw [howned.locals id scope hid]
    exact MintLog.nodup_through howned.nodup id
  obtain ⟨hrest, hlive⟩ := Vm.closeScope_eq_of_get? ht (hpast.census hf).counted hid hnodup
    (howned.holdsScalars hid)
  refine ⟨fun k => howned.mem_liveLocals_iff ht hid,
    fun k => howned.object?_closeScope_of_not_mem ht hid,
    fun k o ho hns => Vm.object?_closeScope ht id ho hns,
    fun id' scope' hne hid' => ⟨?_, fun k hk => ?_⟩, hrest, hlive, fun id' scope' hne hid' k => ?_⟩
  · rw [Vm.scopes_closeScope, if_neg hne, hid']
  · rw [howned.object?_closeScope ht hid, if_neg (howned.not_mem_locals hid hid' hne hk)]
  · rw [howned.object?_closeScope_closeScope ht hid hid' hne,
      howned.object?_closeScope_closeScope ht hid' hid hne.symm]
    split <;> split <;> rfl

/-- In the midst of the tour, the text is released, a block takes its slot, and an integer is
minted. -/
def reuseTour : Vm Unit :=
  midTour.performAll
    [.host (.release (.ofParts 2 2)), .within ⟨0⟩ (.alloc 3), .within ⟨0⟩ (.mint (.int 5))]

/-- When the scope is closed, the integer dies and the block stays. -/
theorem scope_closing_reuseTour :
    reuseTour.scopes.get? ⟨0⟩ =
        some ⟨.ofParts 0 1, .ofParts 1 1, [.ofParts 2 1, .ofParts 2 2, .ofParts 4 1]⟩ ∧
      (reuseTour.closeScope ⟨0⟩).isLive (.ofParts 4 1) = false ∧
      (reuseTour.closeScope ⟨0⟩).isKind (.ofParts 2 3) .block = true ∧
      reuseTour.closeScope ⟨0⟩ =
        { reuseTour with
          table := (reuseTour.closeScope ⟨0⟩).table
          scopes := reuseTour.scopes.erase ⟨0⟩
          journal := reuseTour.journal.push (.scalarsReleased (.ofParts 1 1) 1) } := by
  obtain ⟨past, hpast⟩ := steps_midTour
  have hreuse : Steps midTour _ reuseTour := Vm.steps_performAll midTour (by decide +kernel)
  have hid : reuseTour.scopes.get? ⟨0⟩ =
      some ⟨.ofParts 0 1, .ofParts 1 1, [.ofParts 2 1, .ofParts 2 2, .ofParts 4 1]⟩ :=
    Vm.scope_of_fields (by decide +kernel)
  obtain ⟨hdied, hother, -, -, hrest, -⟩ := scope_closing (hpast.trans hreuse)
    (by unfold Addressable; decide +kernel) hid
  have hlocals : Scope.liveLocals ⟨.ofParts 0 1, .ofParts 1 1,
      [.ofParts 2 1, .ofParts 2 2, .ofParts 4 1]⟩ reuseTour = [.ofParts 4 1] := by decide +kernel
  have hblock : reuseTour.isKind (.ofParts 2 3) .block = true := by decide +kernel
  rw [hlocals] at hdied hother hrest
  refine ⟨hid, ((hdied _).mp (List.mem_singleton_self _)).2, ?_, hrest⟩
  rw [Vm.isKind, hother _ (by decide)]
  exact hblock

end NativeBridge
