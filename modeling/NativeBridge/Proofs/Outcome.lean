import NativeBridge.Proofs.Machine.Call

/-!
# Outcomes of calls

A call that does not fail has a result of the shape that the caller wants (`call_outcome`). It
enters the body of the function once, or not at all if the number of arguments is wrong. Beyond
what the body does, it pushes one report to the module of the caller, or none: for a wrong number
of arguments, for a fault of the body (`Ending.fault?`) and for a value that does not have the
representation that the caller wants (`misfit?`). Then the result is the default of the shape.
-/

namespace NativeBridge

variable {σ : Type} {vm vm' : Vm σ}

/-! ### Reports of a call -/

/-- The report on a value that does not have exactly the representation that the shape names. -/
def misfit? (severity : Severity) (function : Handle) (callee : Function σ) (shape : Shape)
    (value : Option Value) : Option Report :=
  match shape, value with
  | .scalar t, some (.scalar s) => if s.type = t then none else some report
  | .scalar _, _ => some report
  | _, _ => none
where
  /-- The report. -/
  report : Report :=
    ⟨callee.module, function, false, severity, none,
      .shape callee.name (producedTypeName value) shape⟩

/-- The report that a call pushes for the end of the body of `callee`, if any. -/
def Ending.report? (severity : Severity) (function : Handle) (callee : Function σ) (shape : Shape)
    (after : Vm σ) (ending : Ending) : Option Report :=
  (ending.fault? function callee after).or
    (misfit? severity function callee shape (ending.value? after))

/-! ### Results -/

/-- The machine goes on from `after` without entering code and without a report. -/
structure Vm.Rests (after vm : Vm σ) : Prop where
  options : vm.options = after.options
  entries : vm.entries = after.entries
  diagnostics : vm.diagnostics = after.diagnostics

namespace Vm.Rests

theorem trans {vm₁ vm₂ vm₃ : Vm σ} (h₁₂ : vm₁.Rests vm₂) (h₂₃ : vm₂.Rests vm₃) : vm₁.Rests vm₃ :=
  ⟨h₂₃.options.trans h₁₂.options, h₂₃.entries.trans h₁₂.entries,
    h₂₃.diagnostics.trans h₁₂.diagnostics⟩

theorem mint (vm : Vm σ) (id : ScopeId) (v : Value) : vm.Rests (vm.mint id v).2 :=
  ⟨by rw [mint_eq], by rw [mint_eq]; rfl, by rw [mint_eq]⟩

theorem leave (ending : Ending) (function : Handle) (callee : Function σ) (id : ScopeId)
    (after : Vm σ) : after.Rests (ending.leave function callee id after) := by
  have hclosed : after.Rests (ending.closed id after) := by
    cases ending with
    | script answer => exact ⟨rfl, rfl, rfl⟩
    | native answer =>
      rw [Ending.closed]
      exact ⟨by rw [closeScope_eq], after.entries_closeScope id, by rw [closeScope_eq]⟩
  rw [Ending.leave]
  split
  · exact ⟨hclosed.options, hclosed.entries, hclosed.diagnostics⟩
  · exact hclosed

end Vm.Rests

/-- A value that does not fit is no result, and it is reported; all others are results, unless the
caller wants a handle. -/
theorem ofValue?_of_misfit? (severity : Severity) (function : Handle) (callee : Function σ)
    (shape : Shape) (value : Option Value) :
    (misfit? severity function callee shape value =
        some (misfit?.report severity function callee shape value) ∧
      Result.ofValue? value shape = none ∧ shape ≠ .handle) ∨
    (misfit? severity function callee shape value = none ∧
      (shape ≠ .handle → (Result.ofValue? value shape).isSome = true)) := by
  cases shape with
  | scalar t =>
    rcases value with _ | (_ | s | _)
    · exact .inl ⟨rfl, rfl, nofun⟩
    · exact .inl ⟨rfl, rfl, nofun⟩
    · by_cases ht : s.type = t
      · exact .inr ⟨by simp [misfit?, ht], fun _ => by simp [Result.ofValue?, ht]⟩
      · exact .inl ⟨by simp [misfit?, ht], by simp [Result.ofValue?, ht], nofun⟩
    · exact .inl ⟨rfl, rfl, nofun⟩
  | void => exact .inr ⟨rfl, fun _ => rfl⟩
  | handle => exact .inr ⟨rfl, fun h => absurd rfl h⟩

/-- A call whose body ends with a report pushes it and yields the default. -/
theorem deliver_of_report?_eq_some {severity : Severity} {function : Handle}
    {callee : Function σ} {shape : Shape} {ending : Ending} {after : Vm σ} {r : Report}
    (hr : ending.report? severity function callee shape after = some r) (id : ScopeId)
    (scope : Scope) (hseverity : vm.options.defaultSeverity = severity) :
    deliver id scope function callee shape (ending.completion function callee after) vm =
      (.default shape, vm.push scope.module r) := by
  rw [Ending.report?] at hr
  cases hfault : ending.fault? function callee after with
  | some fault =>
    rw [hfault, Option.some_or] at hr
    cases hr
    rw [Ending.completion, hfault]
    rfl
  | none =>
    rw [hfault, Option.none_or] at hr
    rw [Ending.completion, hfault]
    rcases ofValue?_of_misfit? severity function callee shape (ending.value? after) with
      ⟨hmisfit, hvalue, hshape⟩ | ⟨hmisfit, -⟩
    · rw [hmisfit] at hr
      cases hr
      subst hseverity
      exact deliver_of_ofValue?_eq_none hshape hvalue
    · rw [hmisfit] at hr
      cases hr

/-- A call whose body ends without a report yields a result of the shape and pushes nothing. -/
theorem deliver_of_report?_eq_none {severity : Severity} {function : Handle}
    {callee : Function σ} {shape : Shape} {ending : Ending} {after : Vm σ}
    (hr : ending.report? severity function callee shape after = none) {id : ScopeId}
    {scope : Scope} {result : Result}
    (hdeliver :
      deliver id scope function callee shape (ending.completion function callee after) vm =
        (result, vm')) :
    result.shape = shape ∧ vm.Rests vm' ∧
      (shape ≠ .handle → Result.ofValue? (ending.value? after) shape = some result) := by
  rw [Ending.report?, Option.or_eq_none_iff] at hr
  obtain ⟨hfault, hmisfit⟩ := hr
  rw [Ending.completion, hfault] at hdeliver
  rcases ofValue?_of_misfit? severity function callee shape (ending.value? after) with
    ⟨hmisfit', -⟩ | ⟨-, hvalue⟩
  · rw [hmisfit'] at hmisfit
    cases hmisfit
  · by_cases hshape : shape = .handle
    · subst hshape
      cases hdeliver
      exact ⟨rfl, Vm.Rests.mint vm id _, fun h => absurd rfl h⟩
    · obtain ⟨found, hfound⟩ := Option.isSome_iff_exists.mp (hvalue hshape)
      cases (deliver_of_ofValue?_eq_some hshape hfound).symm.trans hdeliver
      exact ⟨Result.shape_of_ofValue? hfound, ⟨rfl, rfl, rfl⟩, fun _ => hfound⟩

/-! ### Calls -/

/-- **Outcomes of calls.** In every state that a machine reaches, a call through a scope that does
not fail has a result of the shape that the caller wants, and

* if the number of arguments is wrong, then nothing is entered, the result is the default, and the
  one report that is pushed is an error of native code that names the scope of the caller;
* otherwise the body is entered once, with the arguments. If its end is a fault, or the value does
  not have the representation that the shape names, then the call pushes the one report on it to
  the module of the caller and yields the default; if not, the call pushes nothing and yields what
  the body produced. -/
theorem call_outcome {options : Options} {memory : σ} {past : List (Step σ)}
    (hpast : Steps (Vm.new options memory) past vm) {id : ScopeId} {scope : Scope}
    {fuel : ℕ} {function : Handle} {shape : Shape} {args : List Argument} {result : Result}
    (hcall : callFunction (run fuel) id scope function shape args vm =
      .finished (.ok result) vm') :
    result.shape = shape ∧
    ∃ callee values, vm.object? function = some (.function callee) ∧
      vm.argumentValues args = .ok values ∧
      (args.length ≠ callee.argc.toNat →
        result = .default shape ∧ vm'.entries = vm.entries ∧
        vm'.diagnostics = vm.diagnostics.push scope.module
          ⟨scope.module, scope.function, true, .error, none,
            .arity callee.name callee.argc args.length⟩) ∧
      (args.length = callee.argc.toNat →
        ∃ ending after inner,
          BodyRuns fuel function callee values
            (vm.record (.dispatched callee.name shape args.length)) ending after ∧
          after.entries = vm.entries ++ callee.entry function values :: inner ∧
          vm'.entries = after.entries ∧
          match ending.report? options.defaultSeverity function callee shape after with
          | some r => result = .default shape ∧
              vm'.diagnostics = after.diagnostics.push scope.module r
          | none => vm'.diagnostics = after.diagnostics ∧
              (shape ≠ .handle →
                Result.ofValue? (ending.value? after) shape = some result)) := by
  have hvm := hpast.scopesCounted (Vm.scopesCounted_new options memory)
  obtain ⟨callee, values, hcallee, hvalues,
    ⟨hargc, rfl, rfl⟩ | ⟨hargc, ending, after, hruns, hdelivered⟩⟩ := callFunction_eq_ok hcall
  · refine ⟨Result.shape_default shape, callee, values, hcallee, hvalues,
      fun _ => ⟨rfl, ?_, rfl⟩, fun he => absurd he hargc⟩
    exact (Vm.entries_push _ _ _).trans (Vm.entries_record_of_entry?_eq_none _ rfl)
  · have hdispatched :
        (vm.record (.dispatched callee.name shape args.length)).ScopesCounted := hvm
    obtain ⟨inner, hentries⟩ := hruns.entries hdispatched hcallee
    rw [Vm.entries_record_of_entry?_eq_none _ rfl] at hentries
    have hrests := Vm.Rests.leave ending function callee ⟨vm.scopesOpened⟩ after
    have hseverity :
        (ending.leave function callee ⟨vm.scopesOpened⟩ after).options.defaultSeverity =
          options.defaultSeverity := by
      obtain ⟨_, hsteps⟩ := hruns.steps hdispatched hcallee
      rw [hrests.options, hsteps.extends.options]
      exact congrArg Options.defaultSeverity hpast.extends.options
    cases hr : ending.report? options.defaultSeverity function callee shape after with
    | some r =>
      rw [deliver_of_report?_eq_some hr id scope hseverity] at hdelivered
      cases hdelivered
      refine ⟨Result.shape_default shape, callee, values, hcallee, hvalues,
        fun hne => absurd hargc hne, fun _ => ⟨ending, after, inner, hruns, hentries, ?_, ?_⟩⟩
      · rw [Vm.entries_push, hrests.entries]
      · rw [hr]
        exact ⟨rfl, by rw [Vm.diagnostics_push, hrests.diagnostics]⟩
    | none =>
      obtain ⟨hshape, hrests', hresult⟩ := deliver_of_report?_eq_none hr hdelivered
      refine ⟨hshape, callee, values, hcallee, hvalues,
        fun hne => absurd hargc hne, fun _ => ⟨ending, after, inner, hruns, hentries, ?_, ?_⟩⟩
      · exact (hrests.trans hrests').entries
      · rw [hr]
        exact ⟨(hrests.trans hrests').diagnostics, hresult⟩

/-- In the midst of the tour, the module calls its top-level code with an argument too many. -/
theorem call_outcome_midTour :
    ∃ vm', callFunction (run 1) ⟨0⟩ ⟨.ofParts 0 1, .ofParts 1 1, []⟩ (.ofParts 1 1) (.scalar .int)
        [.scalar (.int 7)] midTour = .finished (.ok (.scalar (.int 0))) vm' ∧
      vm'.entries = midTour.entries ∧ vm'.diagnostics.pending (.ofParts 0 1) = 1 := by
  obtain ⟨past, hpast⟩ := steps_midTour
  have hcall := Outcome.eq_finished (o := callFunction (run 1) ⟨0⟩ ⟨.ofParts 0 1, .ofParts 1 1, []⟩
    (.ofParts 1 1) (.scalar .int) [.scalar (.int 7)] midTour) (a := .ok (.scalar (.int 0)))
    (by decide +kernel)
  obtain ⟨-, callee, values, hcallee, -, harity, -⟩ := call_outcome hpast hcall
  have hargc := argc_midTour hcallee
  obtain ⟨-, hentries, hdiagnostics⟩ := harity (by rw [hargc]; decide)
  refine ⟨_, hcall, hentries, ?_⟩
  have hempty : midTour.diagnostics.queue (.ofParts 0 1) = [] := by decide +kernel
  rw [Diagnostics.pending, hdiagnostics, Diagnostics.queue_push_self, hempty]
  simp

end NativeBridge
