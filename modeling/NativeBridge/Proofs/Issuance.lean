import NativeBridge.Proofs.Machine.Call
import NativeBridge.Proofs.Protection

/-!
# Handles that calls issue

A call that is to give a handle gives the null handle or one that addresses something, with one
exception: a script function whose body returns a reference that addresses nothing
(`handle_result_iff`). The reference is handed out as it is, while the same answer of a native
function is a fault (`not_handle_result_live`).
-/

namespace NativeBridge

open Handle.Table (Addressable)

variable {σ : Type} {vm vm' : Vm σ}

/-- The handle is null, or it addresses something. -/
def Vm.Validates (vm : Vm σ) (h : Handle) : Prop := h = Handle.null ∨ vm.isLive h = true

theorem Vm.Validates.isNull_or_isLive {h : Handle} (hvalid : vm.Validates h) :
    (h.isNull || vm.isLive h) = true := by
  rcases hvalid with rfl | hlive
  · rfl
  · rw [hlive, Bool.or_true]

theorem Vm.isLive_of_object? {h : Handle} {o : Object σ} (ho : vm.object? h = some o) :
    vm.isLive h = true := Handle.Table.contains_iff.mpr ⟨o, ho⟩

/-- A handle minted for a value is null or live, except for a reference that is not. -/
theorem Vm.validates_mint (hs : vm.table.Sound) {id : ScopeId} {v : Value}
    (hf : (vm.mint id v).2.table.Addressable) (hv : ∀ k, v = .ref k → vm.Validates k) :
    (vm.mint id v).2.Validates (vm.mint id v).1 := by
  cases v with
  | null => exact .inl rfl
  | ref k => exact hv k rfl
  | scalar s => exact .inr (isLive_of_object? (mint_scalar hs hf).2)

theorem Ending.steps_closed (ending : Ending) (id : ScopeId) (after : Vm σ) :
    ∃ steps, Steps after steps (ending.closed id after) := by
  cases ending with
  | script answer => exact ⟨[], .refl⟩
  | native answer => exact ⟨_, .closeScope after id⟩

/-- No value stands for null. -/
theorem eq_some_ref_of_getD {value : Option Value} {k : Handle}
    (hk : value.getD .null = .ref k) : value = some (.ref k) := by
  cases value with
  | none => cases hk
  | some v => exact congrArg some hk

/-- A native body that does not fault produced nothing, a scalar, or a reference that is live still
when its scope is closed. -/
theorem Ending.validates_closed {after : Vm σ} (hs : after.table.Sound) {answer : NativeAnswer}
    (id : ScopeId) {k : Handle}
    (hvalue : (native answer).value? after = some (.ref k)) :
    ((native answer).closed id after).Validates k := by
  cases answer with
  | panicked payload => cases hvalue
  | returned h =>
    obtain ⟨o, ho, hok⟩ := Option.map_eq_some_iff.mp hvalue
    have hns : ∀ s, o ≠ .scalar s := by
      rintro s rfl
      cases hok
    obtain rfl : h = k := by
      cases o with
      | scalar s => exact absurd rfl (hns s)
      | _ => cases hok; rfl
    exact .inr (Vm.isLive_of_object? (Vm.object?_closeScope hs id ho hns))

/-- **Handles that calls issue.** In every state that a machine reaches, a call that gives a handle
gives the null handle if the number of arguments is wrong. Otherwise the handle is null or live in
the state that the call leaves behind, exactly if the body is not that of a script function which
returned a reference that was neither when the body ended. -/
theorem handle_result_iff {options : Options} {memory : σ} {past : List (Step σ)}
    (hpast : Steps (Vm.new options memory) past vm) {id : ScopeId} {scope : Scope} {fuel : ℕ}
    {function : Handle} {args : List Argument} {h : Handle}
    (hcall : callFunction (run fuel) id scope function .handle args vm =
      .finished (.ok (.handle h)) vm') (hf : vm'.table.Addressable) :
    ∃ callee values, vm.object? function = some (.function callee) ∧
      vm.argumentValues args = .ok values ∧
      (args.length ≠ callee.argc.toNat → h = Handle.null) ∧
      (args.length = callee.argc.toNat → ∃ ending after,
        BodyRuns fuel function callee values
          (vm.record (.dispatched callee.name .handle args.length)) ending after ∧
        (vm'.Validates h ↔
          ∀ k, ending = .script (.ok (some (.ref k))) → after.Validates k)) := by
  obtain ⟨callee, values, hcallee, hvalues,
    ⟨hargc, hresult, -⟩ | ⟨hargc, ending, after, hruns, hdelivered⟩⟩ := callFunction_eq_ok hcall
  · refine ⟨callee, values, hcallee, hvalues, fun _ => ?_, fun he => absurd he hargc⟩
    cases hresult
    rfl
  · refine ⟨callee, values, hcallee, hvalues, fun hne => absurd hargc hne,
      fun _ => ⟨ending, after, hruns, ?_⟩⟩
    cases hfault : ending.fault? function callee after with
    | some r =>
      rw [Ending.completion, hfault] at hdelivered
      cases hdelivered
      refine iff_of_true (.inl rfl) ?_
      rintro k rfl
      cases hfault
    | none =>
      rw [Ending.completion, Ending.leave, hfault] at hdelivered
      cases hdelivered
      -- all the machines on the way are sound
      have hdispatched := hpast.snoc (.note (.dispatched callee.name .handle args.length)) trivial
      obtain ⟨_, hruns'⟩ := hruns.steps (hdispatched.scopesCounted
        (Vm.scopesCounted_new options memory)) hcallee
      obtain ⟨_, hclosed⟩ := ending.steps_closed ⟨vm.scopesOpened⟩ after
      have hsteps := (hdispatched.trans hruns').trans hclosed
      have hf₁ := Vm.addressable_of_mint hf
      have hs₁ := hsteps.sound (Vm.sound_new options memory) hf₁
      have hs := (hdispatched.trans hruns').sound (Vm.sound_new options memory)
        (hclosed.addressable hf₁)
      have hmint := Vm.validates_mint hs₁ hf
      cases ending with
      | native answer =>
        refine iff_of_true (hmint fun k hk => ?_) fun k he => ?_
        · exact Ending.validates_closed hs _ (eq_some_ref_of_getD hk)
        · cases he
      | script answer =>
        cases answer with
        | error e => cases hfault
        | ok value =>
          refine ⟨fun hvalid k he => ?_, fun hall => hmint fun k hk => ?_⟩
          · cases he
            exact hvalid
          · obtain rfl := eq_some_ref_of_getD hk
            exact hall k rfl

/-- In the midst of the tour, a call of the top-level code gives the null handle. -/
theorem handle_result_iff_midTour :
    ∃ vm' ending after callee,
      callFunction (run 1) ⟨0⟩ ⟨.ofParts 0 1, .ofParts 1 1, []⟩ (.ofParts 1 1) .handle [] midTour =
        .finished (.ok (.handle Handle.null)) vm' ∧
      BodyRuns 1 (.ofParts 1 1) callee [] (midTour.record (.dispatched callee.name .handle 0))
        ending after ∧
      ∀ k, ending = .script (.ok (some (.ref k))) → after.Validates k := by
  obtain ⟨past, hpast⟩ := steps_midTour
  have hcall := Outcome.eq_finished (o := callFunction (run 1) ⟨0⟩ ⟨.ofParts 0 1, .ofParts 1 1, []⟩
    (.ofParts 1 1) .handle [] midTour) (a := .ok (.handle Handle.null)) (by decide +kernel)
  obtain ⟨callee, values, hcallee, hvalues, -, hruns⟩ := handle_result_iff hpast hcall
    (by unfold Addressable; decide +kernel)
  have hargc := argc_midTour hcallee
  cases hvalues
  obtain ⟨ending, after, hbody, hvalid⟩ := hruns (by rw [hargc]; rfl)
  exact ⟨_, ending, after, callee, hcall, hbody, hvalid.mp (.inl rfl)⟩

/-- A script function that frees the block of the tour and returns it. -/
def freeAndReturn : Act Unit :=
  .defineScript (.ofParts 0 1) "drop" 0 fun _ =>
    .openModule (.ofParts 0 1) fun scope =>
      match scope with
      | .error _ => .done (r := .script) (Except.ok none)
      | .ok id =>
        .within id (.free tourBlock) fun _ =>
          .done (r := .script) (Except.ok (some (.ref tourBlock)))

/-- A call can give a handle that is neither null nor live. -/
theorem not_handle_result_live :
    ¬ ∀ (past : List (Step Unit)) (vm vm' : Vm Unit) (id : ScopeId) (scope : Scope) (fuel : ℕ)
      (function : Handle) (args : List Argument) (h : Handle),
      Steps (Vm.new .default ()) past vm → vm.scopes.get? id = some scope →
      callFunction (run fuel) id scope function .handle args vm =
        .finished (.ok (.handle h)) vm' →
      vm'.table.Addressable → h = Handle.null ∨ vm'.isLive h = true := by
  intro hlive
  obtain ⟨past, hpast⟩ := steps_midTour
  have hid : (freeAndReturn.perform midTour).scopes.get? ⟨0⟩ =
      some ⟨.ofParts 0 1, .ofParts 1 1, [.ofParts 2 1, .ofParts 2 2]⟩ := by
    have hfields : ((freeAndReturn.perform midTour).scopes.get? ⟨0⟩).map
        (fun scope => (scope.module, scope.function, scope.locals)) =
          some (.ofParts 0 1, .ofParts 1 1, [.ofParts 2 1, .ofParts 2 2]) := by decide +kernel
    obtain ⟨⟨module, function, locals⟩, hid, he⟩ := Option.map_eq_some_iff.mp hfields
    cases he
    exact hid
  have hcall := Outcome.eq_finished (o := callFunction (run 1) ⟨0⟩
    ⟨.ofParts 0 1, .ofParts 1 1, [.ofParts 2 1, .ofParts 2 2]⟩ (.ofParts 4 1) .handle []
    (freeAndReturn.perform midTour)) (a := .ok (.handle tourBlock)) (by decide +kernel)
  rcases hlive _ _ _ _ _ _ _ _ _ (hpast.snoc freeAndReturn trivial) hid hcall
    (by unfold Addressable; decide +kernel) with hnull | hl
  · exact absurd hnull (by decide)
  · exact absurd hl (by decide +kernel)

end NativeBridge
