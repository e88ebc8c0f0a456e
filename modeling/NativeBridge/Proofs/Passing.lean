import NativeBridge.Proofs.Promotion
import NativeBridge.Proofs.Protection
import NativeBridge.Proofs.Staleness

/-!
# Arguments by handle and by value

A scalar may be passed to a call by a handle to it or by value, and nobody can tell which: the body
receives the scalar by value in both cases (`argument_passing`). All else that can be passed
(`Vm.Arrives`) is received as it was passed: scalars by value, the null handle, and handles to
modules, functions and blocks. What native code receives it may pass on, and the next body receives
the same.
-/

namespace NativeBridge

variable {σ : Type} {vm vm' : Vm σ} {a a' : Argument} {args args' : List Argument} {h : Handle}

namespace Vm

/-- The argument `a'` is `a`, or it is by value the scalar that `a` passes by handle. -/
inductive ByValue (vm : Vm σ) : Argument → Argument → Prop
  | same (a : Argument) : ByValue vm a a
  | scalar {h : Handle} {s : Scalar} (ho : vm.object? h = some (.scalar s)) :
    ByValue vm (.handle h) (.scalar s)

/-- A native body receives the second argument when the first is passed. -/
inductive Arrives (vm : Vm σ) : Argument → Argument → Prop
  | value (s : Scalar) : Arrives vm (.scalar s) (.scalar s)
  | null : Arrives vm (.handle Handle.null) (.handle Handle.null)
  | reference {h : Handle} {o : Object σ} (ho : vm.object? h = some o) (hns : ∀ s, o ≠ .scalar s) :
    Arrives vm (.handle h) (.handle h)
  | scalar {h : Handle} {s : Scalar} (ho : vm.object? h = some (.scalar s)) :
    Arrives vm (.handle h) (.scalar s)

/-! ### By handle and by value -/

theorem ByValue.argumentValue_eq (ha : vm.ByValue a a') :
    vm.argumentValue a' = vm.argumentValue a := by
  cases ha with
  | same => rfl
  | scalar ho =>
    rw [argumentValue, argumentValue, value?_of_object? ho]
    rfl

theorem argumentValues_byValue (hargs : List.Forall₂ vm.ByValue args args') :
    vm.argumentValues args' = vm.argumentValues args := by
  unfold argumentValues
  induction hargs with
  | nil => rfl
  | cons ha _ ih => rw [List.mapM_cons, List.mapM_cons, ha.argumentValue_eq, ih]

/-! ### What arrives -/

/-- The value of an argument is what arrives of it. -/
theorem arrives_of_argumentValue {v : Value} (ha : vm.argumentValue a = .ok v) :
    vm.Arrives a (.ofValue v) := by
  cases a with
  | scalar s =>
    cases ha
    exact .value s
  | handle h =>
    by_cases hnull : h = Handle.null
    · subst hnull
      cases ha
      exact .null
    · cases ho : vm.object? h with
      | none =>
        have hdead : vm.Dead h := ⟨Bool.eq_false_iff.mpr (hnull ∘ Handle.isNull_iff.mp), ho⟩
        rw [argumentValue, hdead.value?_eq] at ha
        cases ha
      | some o =>
        rw [argumentValue, value?_of_object? ho] at ha
        cases ha
        cases o with
        | scalar s => exact .scalar ho
        | _ => exact .reference ho fun s hs => by cases hs

theorem forall₂_arrives {values : List Value} (hvalues : vm.argumentValues args = .ok values) :
    List.Forall₂ vm.Arrives args (values.map Argument.ofValue) :=
  List.forall₂_map_right_iff.mpr
    ((argumentValues_eq_ok_iff.mp hvalues).imp fun _ _ => arrives_of_argumentValue)

namespace Arrives

theorem of_objects (hobjects : ∀ h, vm'.object? h = vm.object? h) (ha : vm.Arrives a a') :
    vm'.Arrives a a' := by
  cases ha with
  | value s => exact .value s
  | null => exact .null
  | reference ho hns => exact .reference ((hobjects _).trans ho) hns
  | scalar ho => exact .scalar ((hobjects _).trans ho)

/-- What has arrived arrives again. -/
theorem again (ha : vm.Arrives a a') : vm.Arrives a' a' := by
  cases ha with
  | value s => exact .value s
  | null => exact .null
  | reference ho hns => exact .reference ho hns
  | scalar ho => exact .value _

/-- A handle that arrives is null or addresses something, and no scalar. -/
theorem of_handle (ha : vm.Arrives a (.handle h)) :
    h = Handle.null ∨ ∃ o, vm.object? h = some o ∧ ∀ s, o ≠ .scalar s := by
  cases ha with
  | null => exact .inl rfl
  | reference ho hns => exact .inr ⟨_, ho, hns⟩

end Arrives

theorem forall₂_arrives_again (hargs : List.Forall₂ vm.Arrives args args') :
    List.Forall₂ vm.Arrives args' args' := by
  induction hargs with
  | nil => exact .nil
  | cons ha _ ih => exact .cons ha.again ih

/-- What a body receives is determined by what is passed. -/
theorem rightUnique_arrives (vm : Vm σ) : Relator.RightUnique vm.Arrives := by
  intro a b c hb hc
  cases hb with
  | value s => cases hc; rfl
  | null =>
    cases hc with
    | null => rfl
    | reference ho _ => rfl
    | scalar ho => simp [object?] at ho
  | reference ho hns =>
    cases hc with
    | null => rfl
    | reference _ _ => rfl
    | scalar ho' => exact absurd (Option.some_inj.mp (ho.symm.trans ho')) (hns _)
  | scalar ho =>
    cases hc with
    | null => simp [object?] at ho
    | reference ho' hns => exact absurd (Option.some_inj.mp (ho'.symm.trans ho)) (hns _)
    | scalar ho' =>
      cases ho.symm.trans ho'
      rfl

end Vm

/-! ### Calls -/

/-- What a call through the scope `id` makes of the answer of the native body of `callee`, whose own
scope is `own`. -/
def concludeNative (id : ScopeId) (scope : Scope) (function : Handle) (callee : Function σ)
    (shape : Shape) (own : ScopeId) (answer : NativeAnswer) (after : Vm σ) :
    Outcome σ (Except BridgeError Result) :=
  (completeNative function callee own answer after).bind fun completion left =>
    .finished (.ok (deliver id scope function callee shape completion left).1)
      (deliver id scope function callee shape completion left).2

/-- A call of a native function enters the body with the arguments in the form of native code. -/
theorem callFunction_native {enter : Enter σ} {id : ScopeId} {scope : Scope} {function : Handle}
    {shape : Shape} {callee : Function σ} {body : NativeBody σ} {values : List Value}
    (hcallee : vm.object? function = some (.function callee)) (hbody : callee.body = .native body)
    (hvalues : vm.argumentValues args = .ok values) (hargc : args.length = callee.argc.toNat) :
    callFunction enter id scope function shape args vm =
      (enter (body ⟨vm.scopesOpened⟩ (values.map Argument.ofValue)) (.handed ⟨vm.scopesOpened⟩)
        (callee.started function values
          (vm.record (.dispatched callee.name shape args.length)))).bind fun answer =>
            concludeNative id scope function callee shape ⟨vm.scopesOpened⟩ answer.1 := by
  have hlength := Vm.length_argumentValues hvalues
  rw [callFunction_of_eq hcallee hvalues (hlength.trans hargc), hlength, enterBody,
    Function.started, hbody]
  exact Outcome.bind_assoc ..

/-- A call enters no body if the function or an argument does not resolve, or if the number of
arguments is wrong. -/
theorem callFunction_enters_nothing {function : Handle} {shape : Shape}
    (hno : ∀ callee values, vm.object? function = some (.function callee) →
      vm.argumentValues args = .ok values → args.length ≠ callee.argc.toNat)
    (enter enter' : Enter σ) (id : ScopeId) (scope : Scope) :
    callFunction enter id scope function shape args vm =
      callFunction enter' id scope function shape args vm := by
  cases hf : vm.function function with
  | error e => simp only [callFunction, hf]
  | ok callee =>
    have hcallee := function_eq_ok.mp hf
    cases hvalues : vm.argumentValues args with
    | error e => rw [callFunction_of_error hcallee hvalues, callFunction_of_error hcallee hvalues]
    | ok values =>
      have hargc : values.length ≠ callee.argc.toNat :=
        Vm.length_argumentValues hvalues ▸ hno callee values hcallee hvalues
      rw [callFunction_of_ne hcallee hvalues hargc, callFunction_of_ne hcallee hvalues hargc]

/-- **Arguments by handle and by value.** In every state of a machine:

* if scalars that are passed by handle are passed by value instead, whatever the function, the
  shape and the arguments, a call comes to the same end with the same machine after it, in whatever
  way it enters the body, and the program that makes the call goes on in the same way;
* if the arguments resolve and a native function takes as many, the call announces itself and enters
  the body with what arrives of each argument, in order, while every handle addresses what it did;
  none of what arrives is a handle to a scalar or a dead handle, and passed on it arrives
  unchanged;
* if the arguments do not resolve or the function takes another number of them, the call enters no
  body: how it would enter one makes no difference. -/
theorem argument_passing (vm : Vm σ) (args : List Argument) :
    (∀ args', List.Forall₂ vm.ByValue args args' → ∀ (enter : Enter σ) id function shape,
      (∀ scope, callFunction enter id scope function shape args' vm =
        callFunction enter id scope function shape args vm) ∧
      ∀ {r : Role} (next : Except BridgeError Result → Program σ r) (frame : Frame σ),
        (Program.call id function shape args' next).eval enter frame vm =
          (Program.call id function shape args next).eval enter frame vm) ∧
    (∀ values, vm.argumentValues args = .ok values → ∀ function callee body,
      vm.object? function = some (.function callee) → callee.body = .native body →
      args.length = callee.argc.toNat → ∀ shape, ∃ received start,
        List.Forall₂ vm.Arrives args received ∧
        start.entries = vm.entries ++ [.native function received] ∧
        (∀ h, start.object? h = vm.object? h) ∧
        (∀ (enter : Enter σ) id scope, callFunction enter id scope function shape args vm =
          (enter (body ⟨vm.scopesOpened⟩ received) (.handed ⟨vm.scopesOpened⟩) start).bind
            fun answer =>
              concludeNative id scope function callee shape ⟨vm.scopesOpened⟩ answer.1) ∧
        (∀ h, .handle h ∈ received →
          h = Handle.null ∨ ∃ o, start.object? h = some o ∧ ∀ s, o ≠ .scalar s) ∧
        List.Forall₂ start.Arrives received received) ∧
    ∀ function shape,
      (∀ callee values, vm.object? function = some (.function callee) →
        vm.argumentValues args = .ok values → args.length ≠ callee.argc.toNat) →
      ∀ (enter enter' : Enter σ) id scope,
        callFunction enter id scope function shape args vm =
          callFunction enter' id scope function shape args vm := by
  refine ⟨fun args' hargs enter id function shape => ?_,
    fun values hvalues function callee body hcallee hbody hargc shape => ?_,
    fun function shape => callFunction_enters_nothing⟩
  · have hcall : ∀ scope, callFunction enter id scope function shape args' vm =
        callFunction enter id scope function shape args vm := by
      intro scope
      rw [callFunction, Vm.argumentValues_byValue hargs, callFunction]
    refine ⟨hcall, fun next frame => ?_⟩
    simp only [Program.eval, hcall]
  · let start :=
      callee.started function values (vm.record (.dispatched callee.name shape args.length))
    have hobjects : ∀ h, start.object? h = vm.object? h := by
      intro h
      simp only [start, Function.started, hbody]
      rfl
    have harrives := Vm.forall₂_arrives hvalues
    have hagain : List.Forall₂ start.Arrives (values.map Argument.ofValue)
        (values.map Argument.ofValue) :=
      (Vm.forall₂_arrives_again harrives).imp fun _ _ => .of_objects hobjects
    refine ⟨values.map Argument.ofValue, start, harrives, ?_, hobjects,
      fun enter id scope => callFunction_native hcallee hbody hvalues hargc, ?_, hagain⟩
    · rw [Function.entries_started, Vm.entries_record_of_entry?_eq_none _ rfl, Function.entry,
        hbody]
    · intro h hmem
      exact (List.forall₂_same.mp hagain _ hmem).of_handle

/-- A body that returns its second argument. -/
def takeBody : NativeBody Unit := fun _ args =>
  .done (r := .native)
    (NativeAnswer.returned ((args[1]?.bind Argument.toHandle?).getD Handle.null))

/-- In the midst of the tour, a library with a function of three arguments is loaded. -/
def takerTour : Vm Unit :=
  Act.perform midTour (.attachLibrary "tour" ⟨[("take", ⟨3, takeBody⟩)]⟩ 0)

/-- The function is called with the text of the tour, its block and the null handle. The body
receives the text by value, and it makes no difference to pass it by value. Without arguments the
body is not entered. -/
theorem argument_passing_takerTour :
    let scope : Scope := ⟨.ofParts 0 1, .ofParts 1 1, [.ofParts 2 1, .ofParts 2 2]⟩
    let received : List Argument :=
      [.scalar (.string "seven"), .handle tourBlock, .handle Handle.null]
    let call (args : List Argument) :=
      callFunction (run 1) ⟨0⟩ scope (.ofParts 4 1) .handle args takerTour
    call received = call [.handle (.ofParts 2 2), .handle tourBlock, .handle Handle.null] ∧
    (∃ start, start.entries = takerTour.entries ++ [.native (.ofParts 4 1) received] ∧
      call received = (run 1 (takeBody ⟨1⟩ received) (.handed ⟨1⟩) start).bind fun answer =>
        concludeNative ⟨0⟩ scope (.ofParts 4 1) ⟨"take", .ofParts 0 1, 3, .native takeBody⟩ .handle
          ⟨1⟩ answer.1) ∧
    ∀ enter : Enter Unit,
      callFunction enter ⟨0⟩ scope (.ofParts 4 1) .handle [] takerTour = call [] := by
  intro scope received call
  have hcallee : takerTour.object? (.ofParts 4 1) =
      some (.function ⟨"take", .ofParts 0 1, 3, .native takeBody⟩) :=
    object?_attachLibrary_midTour (by decide +kernel) ⟨3, takeBody⟩
  have htext : takerTour.object? (.ofParts 2 2) = some (.scalar (.string "seven")) :=
    Vm.object?_of_value? (by decide +kernel)
  obtain ⟨blk, c, hcell, -⟩ := Vm.protection?_eq_some.mp
    (show takerTour.protection? tourBlock 1 = some .writes by decide +kernel)
  have hopened : takerTour.scopesOpened = 1 := by decide +kernel
  obtain ⟨hbyValue, hreceives, -⟩ := argument_passing takerTour
    [.handle (.ofParts 2 2), .handle tourBlock, .handle Handle.null]
  have hsame : List.Forall₂ takerTour.ByValue
      [.handle (.ofParts 2 2), .handle tourBlock, .handle Handle.null] received :=
    .cons (.scalar htext) (.cons (.same _) (.cons (.same _) .nil))
  have hcall := (hbyValue received hsame (run 1) ⟨0⟩ (.ofParts 4 1) .handle).1 scope
  refine ⟨hcall, ?_, fun enter => ?_⟩
  · obtain ⟨received', start, harrives, hentries, -, henters, -⟩ := hreceives
      [.scalar (.string "seven"), .ref tourBlock, .null] (by decide +kernel) _ _ _ hcallee rfl rfl
      .handle
    have hreceived : List.Forall₂ takerTour.Arrives
        [.handle (.ofParts 2 2), .handle tourBlock, .handle Handle.null] received :=
      .cons (.scalar htext) (.cons
        (.reference (Vm.cell_eq_ok.mp hcell).1 fun s hs => nomatch hs) (.cons .null .nil))
    cases takerTour.rightUnique_arrives.forall₂ harrives hreceived
    rw [hopened] at henters
    exact ⟨start, hentries, hcall.trans (henters (run 1) ⟨0⟩ scope)⟩
  · refine (argument_passing takerTour []).2.2 _ _ (fun callee values hc _ => ?_) enter (run 1) _ _
    cases hcallee.symm.trans hc
    decide

end NativeBridge
