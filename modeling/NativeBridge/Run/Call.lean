import NativeBridge.Run.Frame
import NativeBridge.Vm.Perform

/-!
# Calling functions

A call resolves its function and its arguments, enters the body and gives the caller the result
in the shape that it asked for. Only a function handle or an argument handle that does not
resolve fails a call. A wrong number of arguments, a fault of the body and a value of another
shape leave a report with the caller, and the default of the shape is the result.

The host invokes functions with values of the machine and without a scope. Then a wrong number
of arguments is an error, and a fault of the body is reported to the module of the function.
-/

namespace NativeBridge

variable {σ : Type}

/-- What the body of a function comes to. -/
inductive Completion where
  /-- The body returned, with or without a value. -/
  | returned (value : Option Value)
  /-- The body faulted. -/
  | faulted (report : Report)

/-! ### Bodies -/

/-- What the answer of a native function named `name` means to the machine as the function
leaves it. The null handle is no value, and a handle that addresses nothing is a fault. -/
def NativeAnswer.value (vm : Vm σ) (name : String) :
    NativeAnswer → Except CallFault (Option Value)
  | returned h =>
    match vm.value? h with
    | some .null => .ok none
    | some v => .ok (some v)
    | none => .error (.staleReturn name)
  | panicked payload => .error (.panic name payload.message)

/-- Completes a script function with the answer of its body. -/
def completeScript (function : Handle) (callee : Function σ)
    (answer : Except ScriptError (Option Value)) (vm : Vm σ) : Outcome σ Completion :=
  match answer with
  | .ok value => .finished (.returned value) vm
  | .error e =>
    let (report, vm) := vm.scriptFaultReport ⟨callee.module, function⟩ callee.name e
    .finished (.faulted report) vm

/-- Completes a native function with the answer of its body. The answer is looked at before the
scope of the body is closed. -/
def completeNative (function : Handle) (callee : Function σ) (id : ScopeId)
    (answer : NativeAnswer) (vm : Vm σ) : Outcome σ Completion :=
  match answer.value vm callee.name with
  | .ok value => .finished (.returned value) (vm.closeScope id)
  | .error fault =>
    let (report, vm) := (vm.closeScope id).nativeFaultReport ⟨callee.module, function⟩ fault
    .finished (.faulted report) vm

/-- Enters the body of a function. A native body gets a scope of its own. -/
def enterBody (enter : Enter σ) (function : Handle) (callee : Function σ) (args : List Value)
    (vm : Vm σ) : Outcome σ Completion :=
  match callee.body with
  | .script body =>
    (enter (body args) .bare (vm.record (.entered (.script function args)))).bind
      fun answer vm => completeScript function callee answer.1 vm
  | .native body =>
    let args := args.map Argument.ofValue
    let (id, vm) := vm.openScope ⟨callee.module, function⟩
    (enter (body id args) (.handed id) (vm.record (.entered (.native function args)))).bind
      fun answer vm => completeNative function callee id answer.1 vm

/-! ### Calls -/

/-- Gives a call its result: the value as a handle that belongs to the caller's scope, or in
exactly the representation that the caller wants. Anything else is reported to the caller and
becomes the default. -/
def deliver (id : ScopeId) (scope : Scope) (function : Handle) (callee : Function σ)
    (shape : Shape) (completion : Completion) (vm : Vm σ) : Result × Vm σ :=
  match completion with
  | .faulted report => (.default shape, vm.push scope.module report)
  | .returned value =>
    match shape with
    | .handle =>
      let (h, vm) := vm.mint id (value.getD .null)
      (.handle h, vm)
    | _ =>
      match Result.ofValue? value shape with
      | some result => (result, vm)
      | none =>
        (.default shape, vm.push scope.module
          ⟨callee.module, function, false, vm.options.defaultSeverity, none,
            .shape callee.name (producedTypeName value) shape⟩)

/-- Calls a function through an open scope. -/
def callFunction (enter : Enter σ) (id : ScopeId) (scope : Scope) (function : Handle)
    (shape : Shape) (args : List Argument) (vm : Vm σ) : Outcome σ (Except BridgeError Result) :=
  match vm.function function with
  | .error e => .finished (.error e) vm
  | .ok callee =>
    match vm.argumentValues args with
    | .error e => .finished (.error e) vm
    | .ok values =>
      let vm := vm.record (.dispatched callee.name shape values.length)
      if values.length = callee.argc.toNat then
        (enterBody enter function callee values vm).bind fun completion vm =>
          let (result, vm) := deliver id scope function callee shape completion vm
          .finished (.ok result) vm
      else
        .finished (.ok (.default shape))
          (vm.report scope.site true .error (.arity callee.name callee.argc values.length))

/-! ### Invocations -/

/-- Gives an invocation its value. A fault is reported to the module of the function. -/
def yieldValue (callee : Function σ) (completion : Completion) (vm : Vm σ) :
    Option Value × Vm σ :=
  match completion with
  | .returned value => (value, vm)
  | .faulted report => (none, vm.push callee.module report)

/-- Invokes a function with values of the machine. -/
def invokeFunction (enter : Enter σ) (function : Handle) (args : List Value) (vm : Vm σ) :
    Outcome σ (Except BridgeError (Option Value)) :=
  match vm.function function with
  | .error e => .finished (.error e) vm
  | .ok callee =>
    if args.length = callee.argc.toNat then
      (enterBody enter function callee args vm).bind fun completion vm =>
        let (value, vm) := yieldValue callee completion vm
        .finished (.ok value) vm
    else .finished (.error (.badHandle (.arity callee.name callee.argc args.length))) vm

end NativeBridge
