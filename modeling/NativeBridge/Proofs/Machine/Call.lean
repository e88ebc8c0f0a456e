import NativeBridge.Proofs.Machine.Journal
import NativeBridge.Proofs.Machine.Run

/-!
# Calls taken apart

What a call does beyond the body that it enters. The end of a body is what the program answered
(`Ending`), and from it and the machine that the body leaves follow what the body produced
(`Ending.value?`), the report of its fault (`Ending.fault?`) and the machine that the call goes on
with (`Ending.leave`). A call that does not fail reports a wrong number of arguments, or it runs the
body once and delivers what it came to (`callFunction_eq_ok`).
-/

namespace NativeBridge

variable {σ α β : Type} {vm vm' : Vm σ}

/-! ### Runs that end -/

theorem Outcome.bind_eq_finished {o : Outcome σ α} {next : α → Vm σ → Outcome σ β} {b : β} :
    o.bind next = .finished b vm' ↔
      ∃ a vm, o = .finished a vm ∧ next a vm = .finished b vm' := by
  cases o with
  | finished a vm =>
    refine ⟨fun h => ⟨a, vm, rfl, h⟩, ?_⟩
    rintro ⟨_, _, he, h⟩
    cases he
    exact h
  | halted why vm =>
    refine ⟨fun h => (nomatch h), ?_⟩
    rintro ⟨_, _, he, -⟩
    cases he

theorem Outcome.bind_assoc {γ : Type} (o : Outcome σ α) (next : α → Vm σ → Outcome σ β)
    (last : β → Vm σ → Outcome σ γ) :
    (o.bind next).bind last = o.bind fun a vm => (next a vm).bind last := by
  cases o <;> rfl

theorem Outcome.eq_finished {o : Outcome σ α} {a : α} (ha : o.answer? = some a) :
    o = .finished a o.vm := by
  cases o with
  | finished b vm =>
    cases ha
    rfl
  | halted why vm => cases ha

/-- A run that ends takes the machine through steps. -/
theorem steps_of_run_eq_finished (hvm : vm.ScopesCounted) {fuel : ℕ} {r : Role}
    {program : Program σ r} {frame : Frame σ} (hopened : frame.opened = [])
    (hclean : frame.registrar.Clean) {answer : Answer r × Registrar (NativeFunction σ)}
    (hrun : run fuel program frame vm = .finished answer vm') : ∃ steps, Steps vm steps vm' := by
  have hsteps := steps_run hvm fuel program hopened hclean
  rwa [hrun] at hsteps

/-! ### Bodies -/

/-- How the body of a function ends. -/
inductive Ending where
  | script (answer : Except ScriptError (Option Value))
  | native (answer : NativeAnswer)

/-- The entry into the body of a function. -/
def Function.entry (callee : Function σ) (function : Handle) (values : List Value) : Entry :=
  match callee.body with
  | .script _ => .script function values
  | .native _ => .native function (values.map Argument.ofValue)

/-- The machine on which the body of `callee` begins, right after the entry into it. -/
def Function.started (callee : Function σ) (function : Handle) (values : List Value)
    (vm : Vm σ) : Vm σ :=
  match callee.body with
  | .script _ => vm.record (.entered (.script function values))
  | .native _ =>
    (vm.openScope ⟨callee.module, function⟩).2.record
      (.entered (.native function (values.map Argument.ofValue)))

theorem Function.entries_started (callee : Function σ) (function : Handle) (values : List Value)
    (vm : Vm σ) : (callee.started function values vm).entries =
      vm.entries ++ [callee.entry function values] := by
  unfold started entry
  split
  · exact vm.entries_record _
  · exact Vm.entries_record _ _

theorem Function.steps_started {callee : Function σ} {function : Handle}
    (hf : vm.object? function = some (.function callee)) (values : List Value) :
    ∃ steps, Steps vm steps (callee.started function values vm) := by
  unfold started
  split
  · exact ⟨_, .note vm trivial⟩
  · have hsite : vm.functionSite function = .ok ⟨callee.module, function⟩ := by
      simp [Vm.functionSite, hf]
    have hopened := Steps.refl.snoc (.openScope ⟨callee.module, function⟩)
      (.inl ⟨function, hsite⟩)
    exact ⟨_, hopened.snoc (.note (.entered (.native function _))) trivial⟩

/-- The body of `callee` is entered once with `values` from the machine `vm`, and when it ends it
leaves the machine `after`. -/
inductive BodyRuns (fuel : ℕ) (function : Handle) (callee : Function σ) (values : List Value)
    (vm : Vm σ) : Ending → Vm σ → Prop
  | script {body : ScriptBody σ} (hbody : callee.body = .script body)
    {answer : Except ScriptError (Option Value) × Registrar (NativeFunction σ)} {after : Vm σ}
    (hrun : run fuel (body values) .bare (vm.record (.entered (.script function values))) =
      .finished answer after) :
    BodyRuns fuel function callee values vm (.script answer.1) after
  | native {body : NativeBody σ} (hbody : callee.body = .native body)
    {answer : NativeAnswer × Registrar (NativeFunction σ)} {after : Vm σ}
    (hrun : run fuel (body ⟨vm.scopesOpened⟩ (values.map Argument.ofValue))
        (.handed ⟨vm.scopesOpened⟩)
        ((vm.openScope ⟨callee.module, function⟩).2.record
          (.entered (.native function (values.map Argument.ofValue)))) =
      .finished answer after) :
    BodyRuns fuel function callee values vm (.native answer.1) after

namespace Ending

/-- What the body produced, as the machine `after` has it. -/
def value? (after : Vm σ) : Ending → Option Value
  | script (.ok value) => value
  | native (.returned h) => (after.object? h).map (Object.value h)
  | _ => none

/-- The report of the fault that the end of the body of `callee` is, if it is one: an error of a
script, a panic of native code, or a handle returned by native code that is neither null nor
live. -/
def fault? (function : Handle) (callee : Function σ) (after : Vm σ) : Ending → Option Report
  | script (.ok _) => none
  | script (.error e) =>
    some ⟨callee.module, function, false, .critical, some ⟨after.faultsOccurred, .script e⟩,
      .scriptFault callee.name⟩
  | native (.returned h) =>
    if h.isNull || after.isLive h then none
    else some (nativeReport (.staleReturn callee.name))
  | native (.panicked payload) => some (nativeReport (.panic callee.name payload.message))
where
  /-- The report of a fault of native code. -/
  nativeReport (fault : CallFault) : Report :=
    ⟨callee.module, function, true, .critical, some ⟨after.faultsOccurred, .call fault⟩,
      .nativeFault fault⟩

/-- What a body comes to is its fault or what it produced. -/
def completion (function : Handle) (callee : Function σ) (after : Vm σ) (ending : Ending) :
    Completion :=
  match ending.fault? function callee after with
  | some r => .faulted r
  | none => .returned (ending.value? after)

/-- The machine after the end of a body. The scope `id` of a native body is closed. -/
def closed (id : ScopeId) (after : Vm σ) : Ending → Vm σ
  | script _ => after
  | native _ => after.closeScope id

/-- The machine that a call goes on with after the end of a body, a fault being counted. -/
def leave (function : Handle) (callee : Function σ) (id : ScopeId) (after : Vm σ)
    (ending : Ending) : Vm σ :=
  match ending.fault? function callee after with
  | some _ =>
    { ending.closed id after with faultsOccurred := (ending.closed id after).faultsOccurred + 1 }
  | none => ending.closed id after

end Ending

theorem completeScript_eq (function : Handle) (callee : Function σ) (id : ScopeId)
    (answer : Except ScriptError (Option Value)) (after : Vm σ) :
    completeScript function callee answer after =
      .finished ((Ending.script answer).completion function callee after)
        ((Ending.script answer).leave function callee id after) := by
  cases answer <;> rfl

/-- What the machine makes of the answer of a native function, before it closes the scope. -/
theorem NativeAnswer.value_eq (function : Handle) (callee : Function σ) (after : Vm σ)
    (answer : NativeAnswer) :
    (∃ fault, answer.value after callee.name = .error fault ∧
        (Ending.native answer).fault? function callee after =
          some (Ending.fault?.nativeReport function callee after fault)) ∨
      (answer.value after callee.name = .ok ((Ending.native answer).value? after) ∧
        (Ending.native answer).fault? function callee after = none) := by
  cases answer with
  | panicked payload => exact .inl ⟨_, rfl, rfl⟩
  | returned h =>
    cases hnull : h.isNull with
    | true =>
      obtain rfl := Handle.isNull_iff.mp hnull
      exact .inr ⟨rfl, rfl⟩
    | false =>
      cases ho : after.object? h with
      | none =>
        have hlive : after.isLive h = false := by
          rw [Vm.isLive_eq_isSome, ho]
          rfl
        exact .inl ⟨.staleReturn callee.name, by simp [value, Vm.value?, hnull, ho],
          by simp [Ending.fault?, hnull, hlive]⟩
      | some o =>
        have hlive : after.isLive h = true := by
          rw [Vm.isLive_eq_isSome, ho]
          rfl
        refine .inr ⟨?_, by simp [Ending.fault?, hlive]⟩
        cases o <;> simp [value, Vm.value?, hnull, ho, Object.value, Ending.value?]

theorem completeNative_eq (function : Handle) (callee : Function σ) (id : ScopeId)
    (answer : NativeAnswer) (after : Vm σ) :
    completeNative function callee id answer after =
      .finished ((Ending.native answer).completion function callee after)
        ((Ending.native answer).leave function callee id after) := by
  rcases answer.value_eq function callee after with ⟨fault, hvalue, hfault⟩ | ⟨hvalue, hfault⟩
  · have hoccurred : (after.closeScope id).faultsOccurred = after.faultsOccurred := by
      rw [Vm.closeScope_eq]
    rw [Ending.completion, Ending.leave, hfault, completeNative, hvalue]
    simp only [Vm.nativeFaultReport, Vm.occur, hoccurred, Ending.fault?.nativeReport, Ending.closed]
  · rw [Ending.completion, Ending.leave, hfault, completeNative, hvalue]
    rfl

/-- A body that is entered and ends is run, and the call goes on with what it comes to. -/
theorem bodyRuns_of_enterBody {fuel : ℕ} {function : Handle} {callee : Function σ}
    {values : List Value} {completion : Completion}
    (h : enterBody (run fuel) function callee values vm = .finished completion vm') :
    ∃ ending after, BodyRuns fuel function callee values vm ending after ∧
      completion = ending.completion function callee after ∧
      vm' = ending.leave function callee ⟨vm.scopesOpened⟩ after := by
  unfold enterBody at h
  split at h
  · next body hbody =>
    obtain ⟨answer, after, hrun, hcomplete⟩ := Outcome.bind_eq_finished.mp h
    cases (completeScript_eq function callee ⟨vm.scopesOpened⟩ answer.1 after).symm.trans hcomplete
    exact ⟨_, after, .script hbody hrun, rfl, rfl⟩
  · next body hbody =>
    obtain ⟨answer, after, hrun, hcomplete⟩ := Outcome.bind_eq_finished.mp h
    cases (completeNative_eq function callee _ answer.1 after).symm.trans hcomplete
    exact ⟨_, after, .native hbody hrun, rfl, rfl⟩

namespace BodyRuns

variable {fuel : ℕ} {function : Handle} {callee : Function σ} {values : List Value}
  {ending : Ending} {after : Vm σ}

/-- What a body that is run comes to. -/
theorem enterBody_eq (h : BodyRuns fuel function callee values vm ending after) :
    enterBody (run fuel) function callee values vm =
      .finished (ending.completion function callee after)
        (ending.leave function callee ⟨vm.scopesOpened⟩ after) := by
  cases h with
  | script hbody hrun =>
    simp only [enterBody, hbody, hrun]
    exact completeScript_eq ..
  | native hbody hrun =>
    unfold enterBody
    rw [hbody]
    exact (congrArg (Outcome.bind · _) hrun).trans (completeNative_eq ..)

/-- A body begins right after its own entry, and takes the machine through steps. -/
theorem begins (h : BodyRuns fuel function callee values vm ending after) (hvm : vm.ScopesCounted)
    (hf : vm.object? function = some (.function callee)) :
    ∃ start, (∃ steps, Steps vm steps start) ∧
      start.entries = vm.entries ++ [callee.entry function values] ∧
      ∃ steps, Steps start steps after := by
  obtain ⟨_, hstarted⟩ := Function.steps_started hf values
  have hcounted := hstarted.scopesCounted hvm
  refine ⟨_, ⟨_, hstarted⟩, callee.entries_started function values vm, ?_⟩
  cases h with
  | script hbody hrun =>
    simp only [Function.started, hbody] at hcounted ⊢
    exact steps_of_run_eq_finished hcounted rfl (Registrar.clean_new _) hrun
  | native hbody hrun =>
    simp only [Function.started, hbody] at hcounted ⊢
    exact steps_of_run_eq_finished hcounted rfl (Registrar.clean_new _) hrun

theorem steps (h : BodyRuns fuel function callee values vm ending after) (hvm : vm.ScopesCounted)
    (hf : vm.object? function = some (.function callee)) : ∃ steps, Steps vm steps after := by
  obtain ⟨start, ⟨_, hstart⟩, -, _, hafter⟩ := h.begins hvm hf
  exact ⟨_, hstart.trans hafter⟩

/-- The body is entered once, before all that is entered while it runs. -/
theorem entries (h : BodyRuns fuel function callee values vm ending after)
    (hvm : vm.ScopesCounted) (hf : vm.object? function = some (.function callee)) :
    ∃ inner, after.entries = vm.entries ++ callee.entry function values :: inner := by
  obtain ⟨start, -, hstart, _, hafter⟩ := h.begins hvm hf
  obtain ⟨inner, hinner⟩ := hafter.extends.entries
  exact ⟨inner, by simp [← hinner, hstart]⟩

end BodyRuns

theorem Outcome.entries_bind {next : α → Vm σ → Outcome σ β}
    (hnext : ∀ a vm, (next a vm).vm.entries = vm.entries) (o : Outcome σ α) :
    (o.bind next).vm.entries = o.vm.entries := by
  cases o with
  | finished a vm => exact hnext a vm
  | halted why vm => rfl

/-- A body is entered before all else, whether it ends or not. -/
theorem entries_enterBody (hvm : vm.ScopesCounted) {function : Handle} {callee : Function σ}
    (hf : vm.object? function = some (.function callee)) (fuel : ℕ) (values : List Value) :
    ∃ inner, (enterBody (run fuel) function callee values vm).vm.entries =
      vm.entries ++ callee.entry function values :: inner := by
  obtain ⟨_, hstarted⟩ := Function.steps_started hf values
  have hcounted := hstarted.scopesCounted hvm
  have hgrows : ∀ {r : Role} (program : Program σ r) (frame : Frame σ), frame.opened = [] →
      frame.registrar.Clean → ∃ inner,
        (run fuel program frame (callee.started function values vm)).vm.entries =
          vm.entries ++ callee.entry function values :: inner := by
    intro r program frame hopened hclean
    obtain ⟨_, hsteps⟩ := steps_run hcounted fuel program hopened hclean
    obtain ⟨inner, hinner⟩ := hsteps.extends.entries
    exact ⟨inner, by simp [← hinner, Function.entries_started]⟩
  unfold Function.started at hgrows
  unfold enterBody
  cases hbody : callee.body with
  | script body =>
    obtain ⟨inner, hinner⟩ := hgrows (body values) .bare rfl (Registrar.clean_new _)
    rw [hbody] at hinner
    refine ⟨inner, (Outcome.entries_bind (fun answer vm => ?_) _).trans hinner⟩
    unfold completeScript
    split <;> rfl
  | native body =>
    obtain ⟨inner, hinner⟩ := hgrows (body ⟨vm.scopesOpened⟩ (values.map Argument.ofValue))
      (.handed ⟨vm.scopesOpened⟩) rfl (Registrar.clean_new _)
    rw [hbody] at hinner
    refine ⟨inner, (Outcome.entries_bind (fun answer vm => ?_) _).trans hinner⟩
    unfold completeNative
    split <;> exact vm.entries_closeScope _

/-! ### Calls -/

/-- Arguments have values exactly if each of them has one. -/
theorem Vm.argumentValues_eq_ok_iff {args : List Argument} {values : List Value} :
    vm.argumentValues args = .ok values ↔
      List.Forall₂ (fun a v => vm.argumentValue a = .ok v) args values := by
  rw [argumentValues]
  induction args generalizing values with
  | nil => cases values <;> simp [pure, Except.pure]
  | cons a args ih =>
    rw [List.mapM_cons]
    cases hvalue : vm.argumentValue a with
    | error e => cases values <;> simp [bind, Except.bind, hvalue]
    | ok v =>
      cases hrest : args.mapM vm.argumentValue with
      | error e => cases values <;> simp [bind, Except.bind, ← ih, hrest, hvalue]
      | ok vs =>
        cases values <;> simp [bind, Except.bind, pure, Except.pure, ← ih, hrest, hvalue]

theorem Vm.length_argumentValues {args : List Argument} {values : List Value}
    (hvalues : vm.argumentValues args = .ok values) : values.length = args.length :=
  (argumentValues_eq_ok_iff.mp hvalues).length_eq.symm

section Equations

variable {enter : Enter σ} {id : ScopeId} {scope : Scope} {function : Handle} {callee : Function σ}
  {shape : Shape} {args : List Argument} {values : List Value} {completion : Completion}

/-- A call with an argument that does not resolve fails. -/
theorem callFunction_of_error (hcallee : vm.object? function = some (.function callee))
    {e : BridgeError} (hvalues : vm.argumentValues args = .error e) :
    callFunction enter id scope function shape args vm = .finished (.error e) vm := by
  simp [callFunction, function_eq_ok.mpr hcallee, hvalues]

/-- A call with a wrong number of arguments is reported to the caller. -/
theorem callFunction_of_ne (hcallee : vm.object? function = some (.function callee))
    (hvalues : vm.argumentValues args = .ok values) (hargc : values.length ≠ callee.argc.toNat) :
    callFunction enter id scope function shape args vm =
      .finished (.ok (.default shape))
        ((vm.record (.dispatched callee.name shape values.length)).report scope.site true .error
          (.arity callee.name callee.argc values.length)) := by
  simp [callFunction, function_eq_ok.mpr hcallee, hvalues, hargc]

/-- A call delivers what the body comes to. -/
theorem callFunction_of_eq (hcallee : vm.object? function = some (.function callee))
    (hvalues : vm.argumentValues args = .ok values) (hargc : values.length = callee.argc.toNat) :
    callFunction enter id scope function shape args vm =
      (enterBody enter function callee values
        (vm.record (.dispatched callee.name shape values.length))).bind fun completion vm =>
          .finished (.ok (deliver id scope function callee shape completion vm).1)
            (deliver id scope function callee shape completion vm).2 := by
  simp [callFunction, function_eq_ok.mpr hcallee, hvalues, hargc]

/-- An invocation with a wrong number of arguments fails. -/
theorem invokeFunction_of_ne (hcallee : vm.object? function = some (.function callee))
    (hargc : values.length ≠ callee.argc.toNat) :
    invokeFunction enter function values vm =
      .finished (.error (.badHandle (.arity callee.name callee.argc values.length))) vm := by
  simp [invokeFunction, function_eq_ok.mpr hcallee, hargc]

/-- An invocation yields what the body comes to. -/
theorem invokeFunction_of_eq (hcallee : vm.object? function = some (.function callee))
    (hargc : values.length = callee.argc.toNat) :
    invokeFunction enter function values vm =
      (enterBody enter function callee values vm).bind fun completion vm =>
        .finished (.ok (yieldValue callee completion vm).1)
          (yieldValue callee completion vm).2 := by
  simp [invokeFunction, function_eq_ok.mpr hcallee, hargc]

/-- A value that fits the shape is delivered as it is. -/
theorem deliver_of_ofValue?_eq_some {value : Option Value} {result : Result}
    (hshape : shape ≠ .handle) (hfit : Result.ofValue? value shape = some result) :
    deliver id scope function callee shape (.returned value) vm = (result, vm) := by
  cases shape with
  | handle => exact absurd rfl hshape
  | _ => simp only [deliver, hfit]

/-- A value that does not fit the shape is reported to the caller. -/
theorem deliver_of_ofValue?_eq_none {value : Option Value} (hshape : shape ≠ .handle)
    (hfit : Result.ofValue? value shape = none) :
    deliver id scope function callee shape (.returned value) vm =
      (.default shape, vm.push scope.module
        ⟨callee.module, function, false, vm.options.defaultSeverity, none,
          .shape callee.name (producedTypeName value) shape⟩) := by
  cases shape with
  | handle => exact absurd rfl hshape
  | _ => simp only [deliver, hfit]

theorem addressable_of_deliver
    (hf : (deliver id scope function callee shape completion vm).2.table.Addressable) :
    vm.table.Addressable := by
  have hpush : ∀ {owner : Handle} {r : Report}, (vm.push owner r).table.Addressable →
      vm.table.Addressable := by
    intro owner r hf
    rwa [← Vm.table_holdings, Vm.holdings_push] at hf
  unfold deliver at hf
  split at hf
  · exact hpush hf
  · split at hf
    · exact Vm.addressable_of_mint hf
    · split at hf
      · exact hf
      · exact hpush hf

end Equations

/-- A call that does not fail reports a wrong number of arguments, or it runs the body and delivers
what it came to. -/
theorem callFunction_eq_ok {fuel : ℕ} {id : ScopeId} {scope : Scope} {function : Handle}
    {shape : Shape} {args : List Argument} {result : Result}
    (hcall : callFunction (run fuel) id scope function shape args vm =
      .finished (.ok result) vm') :
    ∃ callee values, vm.object? function = some (.function callee) ∧
      vm.argumentValues args = .ok values ∧
      (args.length ≠ callee.argc.toNat ∧ result = .default shape ∧
          vm' = (vm.record (.dispatched callee.name shape args.length)).report scope.site true
            .error (.arity callee.name callee.argc args.length) ∨
        args.length = callee.argc.toNat ∧ ∃ ending after,
          BodyRuns fuel function callee values
            (vm.record (.dispatched callee.name shape args.length)) ending after ∧
          deliver id scope function callee shape (ending.completion function callee after)
            (ending.leave function callee ⟨vm.scopesOpened⟩ after) = (result, vm')) := by
  unfold callFunction at hcall
  split at hcall
  · cases hcall
  · next callee hcallee =>
    split at hcall
    · cases hcall
    · next values hvalues =>
      refine ⟨callee, values, function_eq_ok.mp hcallee, hvalues, ?_⟩
      rw [Vm.length_argumentValues hvalues] at hcall
      split at hcall
      · next hargc =>
        obtain ⟨completion, vm₁, hbody, hdeliver⟩ := Outcome.bind_eq_finished.mp hcall
        obtain ⟨ending, after, hruns, rfl, rfl⟩ := bodyRuns_of_enterBody hbody
        refine .inr ⟨hargc, ending, after, hruns, ?_⟩
        cases hdeliver
        rfl
      · next hargc =>
        cases hcall
        exact .inl ⟨hargc, rfl, rfl⟩

end NativeBridge
