import NativeBridge.Proofs.Staleness

/-!
# Calls that fail

A call fails exactly if its handle addresses no function or one of its arguments is a dead handle
(`call_failure`). Both are looked at before the number of arguments and before anything happens, so
that a call that fails leaves the machine as it found it. Whatever goes wrong later, at any depth,
is a report and no error.
-/

namespace NativeBridge

variable {σ : Type} {vm vm' : Vm σ} {args : List Argument} {function k : Handle}

namespace Vm

/-! ### What is at fault -/

/-- `k` is the first dead handle among some arguments. -/
inductive FirstDead (vm : Vm σ) : List Argument → Handle → Prop
  | here {k : Handle} {rest : List Argument} (hk : vm.Dead k) :
    FirstDead vm (.handle k :: rest) k
  | there {a : Argument} {rest : List Argument} {k : Handle}
    (ha : ∀ j, a = .handle j → ¬ vm.Dead j) (hrest : FirstDead vm rest k) :
    FirstDead vm (a :: rest) k

/-- Why a call fails: its handle addresses no function, or it does and the first dead handle among
the arguments is at fault. -/
inductive Faulty (vm : Vm σ) (function : Handle) (args : List Argument) : HandleFault → Prop
  | nothing (hf : vm.object? function = none) :
    Faulty vm function args (.addressesNothing function .function)
  | other {o : Object σ} (hf : vm.object? function = some o) (ho : ∀ callee, o ≠ .function callee) :
    Faulty vm function args (.addresses function o.kind .function)
  | argument {callee : Function σ} (hf : vm.object? function = some (.function callee)) {k : Handle}
    (hk : vm.FirstDead args k) : Faulty vm function args (.staleArgument k)

theorem Dead.argumentValue_eq (hk : vm.Dead k) :
    vm.argumentValue (.handle k) = .error (.badHandle (.staleArgument k)) := by
  rw [argumentValue, hk.value?_eq]

/-- What has a value is no dead handle. -/
theorem not_dead_of_argumentValue_eq_ok {a : Argument} {v : Value}
    (ha : vm.argumentValue a = .ok v) {j : Handle} (hj : a = .handle j) : ¬ vm.Dead j := by
  intro hdead
  rw [hj, hdead.argumentValue_eq] at ha
  cases ha

/-- What is no dead handle has a value. -/
theorem argumentValue_eq_ok {a : Argument} (ha : ∀ j, a = .handle j → ¬ vm.Dead j) :
    ∃ v, vm.argumentValue a = .ok v := by
  cases hvalue : vm.argumentValue a with
  | ok v => exact ⟨v, rfl⟩
  | error e =>
    obtain ⟨j, hj, hdead, -⟩ := argumentValue_eq_error hvalue
    exact absurd hdead (ha j hj)

theorem FirstDead.argumentValues_eq (hk : vm.FirstDead args k) :
    vm.argumentValues args = .error (.badHandle (.staleArgument k)) := by
  rw [argumentValues]
  induction hk with
  | here hk =>
    rw [List.mapM_cons, hk.argumentValue_eq]
    rfl
  | there ha _ ih =>
    obtain ⟨v, hv⟩ := argumentValue_eq_ok ha
    rw [List.mapM_cons, hv, ih]
    rfl

/-- Arguments fail to have values exactly through the first dead handle among them. -/
theorem argumentValues_eq_error_iff {e : BridgeError} :
    vm.argumentValues args = .error e ↔
      ∃ k, vm.FirstDead args k ∧ e = .badHandle (.staleArgument k) := by
  constructor
  · intro hargs
    induction args with
    | nil => cases hargs
    | cons a rest ih =>
      rw [argumentValues, List.mapM_cons] at hargs
      cases ha : vm.argumentValue a with
      | error e' =>
        rw [ha] at hargs
        cases hargs
        obtain ⟨k, rfl, hdead, he⟩ := argumentValue_eq_error ha
        exact ⟨k, .here hdead, he⟩
      | ok v =>
        cases hrest : vm.argumentValues rest with
        | error e' =>
          rw [argumentValues] at hrest
          rw [ha, hrest] at hargs
          cases hargs
          obtain ⟨k, hk, he⟩ := ih hrest
          exact ⟨k, .there (fun _ => not_dead_of_argumentValue_eq_ok ha) hk, he⟩
        | ok values =>
          rw [argumentValues] at hrest
          rw [ha, hrest] at hargs
          cases hargs
  · rintro ⟨k, hk, rfl⟩
    exact hk.argumentValues_eq

theorem exists_firstDead_iff :
    (∃ k, vm.FirstDead args k) ↔ ∃ k, .handle k ∈ args ∧ vm.Dead k := by
  constructor
  · rintro ⟨k, hk⟩
    induction hk with
    | here hk => exact ⟨_, List.mem_cons_self, hk⟩
    | there _ _ ih =>
      obtain ⟨k, hmem, hk⟩ := ih
      exact ⟨k, List.mem_cons_of_mem _ hmem, hk⟩
  · rintro ⟨k, hmem, hk⟩
    obtain ⟨j, -, -, hargs⟩ := hk.argumentValues_eq hmem
    obtain ⟨i, hi, -⟩ := argumentValues_eq_error_iff.mp hargs
    exact ⟨i, hi⟩

theorem exists_faulty_iff :
    (∃ fault, vm.Faulty function args fault) ↔
      (∀ callee, vm.object? function ≠ some (.function callee)) ∨
        ∃ k, .handle k ∈ args ∧ vm.Dead k := by
  rw [← exists_firstDead_iff]
  constructor
  · rintro ⟨fault, hf | ⟨hf, ho⟩ | ⟨hf, hk⟩⟩
    · exact .inl fun callee hcallee => nomatch hf.symm.trans hcallee
    · exact .inl fun callee hcallee => ho callee (Option.some_inj.mp (hf.symm.trans hcallee))
    · exact .inr ⟨_, hk⟩
  · intro h
    cases hf : vm.object? function with
    | none => exact ⟨_, .nothing hf⟩
    | some o =>
      by_cases ho : ∃ callee, o = .function callee
      · obtain ⟨callee, rfl⟩ := ho
        obtain ⟨k, hk⟩ := h.resolve_left fun hno => hno callee hf
        exact ⟨_, .argument hf hk⟩
      · exact ⟨_, .other hf fun callee he => ho ⟨callee, he⟩⟩

end Vm

/-! ### Calls -/

/-- Resolving the function fails exactly if the handle addresses none. -/
theorem function_eq_error_iff {e : BridgeError} :
    vm.function function = .error e ↔
      (vm.object? function = none ∧ e = .badHandle (.addressesNothing function .function)) ∨
        ∃ o, vm.object? function = some o ∧ (∀ callee, o ≠ .function callee) ∧
          e = .badHandle (.addresses function o.kind .function) := by
  unfold Vm.function
  split
  · next callee hf => simp [hf]
  · next o ho hf =>
    simp only [hf, reduceCtorEq, false_and, false_or, Option.some.injEq, exists_eq_left']
    exact ⟨fun he => ⟨fun callee he' => ho callee he', by cases he; rfl⟩, fun h => h.2 ▸ rfl⟩
  · next hf => simp [hf, eq_comm]

/-- A call that does not fail at once never fails. -/
theorem callFunction_eq_error_iff {enter : Enter σ} {id : ScopeId} {scope : Scope} {shape : Shape}
    {e : BridgeError} :
    callFunction enter id scope function shape args vm = .finished (.error e) vm' ↔
      vm' = vm ∧ ∃ fault, vm.Faulty function args fault ∧ e = .badHandle fault := by
  constructor
  · intro hcall
    unfold callFunction at hcall
    split at hcall
    · next e' hf =>
      cases hcall
      refine ⟨rfl, ?_⟩
      rcases function_eq_error_iff.mp hf with ⟨hnone, rfl⟩ | ⟨o, ho, hother, rfl⟩
      · exact ⟨_, .nothing hnone, rfl⟩
      · exact ⟨_, .other ho hother, rfl⟩
    · next callee hf =>
      split at hcall
      · next e' hargs =>
        cases hcall
        obtain ⟨k, hk, rfl⟩ := Vm.argumentValues_eq_error_iff.mp hargs
        exact ⟨rfl, _, .argument (function_eq_ok.mp hf) hk, rfl⟩
      · -- from here on the call yields a result, if it ends
        split at hcall
        · obtain ⟨completion, after, -, hdeliver⟩ := Outcome.bind_eq_finished.mp hcall
          cases hdeliver
        · cases hcall
  · rintro ⟨rfl, fault, hfault, rfl⟩
    unfold callFunction
    cases hfault with
    | nothing hf => rw [function_eq_error_iff.mpr (.inl ⟨hf, rfl⟩)]
    | other hf ho => rw [function_eq_error_iff.mpr (.inr ⟨_, hf, ho, rfl⟩)]
    | argument hf hk => rw [function_eq_ok.mpr hf, hk.argumentValues_eq]

/-- **Failures of calls.** Whatever the number of arguments and the shape:

* a call fails exactly if its handle addresses no function or one of its arguments is a dead handle;
* the error is that of the bad handle, the first dead argument if the handle addresses a function,
  and the machine is as it was: nothing is entered, reported or minted, and no scope has changed;
* the program that makes the call goes on with the error as if it had made none. -/
theorem call_failure (vm : Vm σ) (enter : Enter σ) (id : ScopeId) (scope : Scope)
    (function : Handle) (shape : Shape) (args : List Argument) :
    ((∃ e vm', callFunction enter id scope function shape args vm = .finished (.error e) vm') ↔
      (∀ callee, vm.object? function ≠ some (.function callee)) ∨
        ∃ k, .handle k ∈ args ∧ vm.Dead k) ∧
    (∀ e vm', callFunction enter id scope function shape args vm = .finished (.error e) vm' →
      vm' = vm ∧ ∃ fault, vm.Faulty function args fault ∧ e = .badHandle fault) ∧
    ∀ {r : Role} (next : Except BridgeError Result → Program σ r) (frame : Frame σ)
      (e : BridgeError) (vm' : Vm σ), frame.scope? vm id = some scope →
      callFunction enter id scope function shape args vm = .finished (.error e) vm' →
      (Program.call id function shape args next).eval enter frame vm =
        (next (.error e)).eval enter frame vm := by
  refine ⟨?_, fun e vm' hcall => callFunction_eq_error_iff.mp hcall,
    fun next frame e vm' hscope hcall => ?_⟩
  · rw [← Vm.exists_faulty_iff]
    constructor
    · rintro ⟨e, vm', hcall⟩
      obtain ⟨-, fault, hfault, -⟩ := callFunction_eq_error_iff.mp hcall
      exact ⟨fault, hfault⟩
    · rintro ⟨fault, hfault⟩
      exact ⟨_, _, callFunction_eq_error_iff.mpr ⟨rfl, fault, hfault, rfl⟩⟩
  · obtain ⟨rfl, -⟩ := callFunction_eq_error_iff.mp hcall
    simp only [Program.eval, hscope, hcall, Outcome.bind_finished]

/-- In the midst of the tour, a call of the top-level code with an argument too many fails all the
same, since the argument is dead. -/
theorem call_failure_midTour :
    callFunction (run 1) ⟨0⟩ ⟨.ofParts 0 1, .ofParts 1 1, []⟩ (.ofParts 1 1) .handle
        [.handle (.ofParts 2 1)] midTour =
      .finished (.error (.badHandle (.staleArgument (.ofParts 2 1)))) midTour := by
  obtain ⟨hiff, hexact, -⟩ := call_failure midTour (run 1) ⟨0⟩ ⟨.ofParts 0 1, .ofParts 1 1, []⟩
    (.ofParts 1 1) .handle [.handle (.ofParts 2 1)]
  obtain ⟨e, vm', hcall⟩ := hiff.mpr (.inr ⟨_, List.mem_singleton_self _, dead_midTour⟩)
  obtain ⟨hvm, fault, hfault, rfl⟩ := hexact e vm' hcall
  rw [hvm] at hcall
  cases hfault with
  | nothing hf => cases hf.symm.trans init_midTour
  | other hf ho => exact absurd (Option.some_inj.mp (hf.symm.trans init_midTour)) (ho _)
  | argument hf hk =>
    cases hk with
    | here => exact hcall
    | there _ hrest => cases hrest

end NativeBridge
