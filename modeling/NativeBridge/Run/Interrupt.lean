import NativeBridge.Run.Frame

/-!
# Raising interrupts

An interrupt is offered to the handlers in the order of their registration, in the scope of
whoever raised it, until one of them does not leave it to the others. What goes wrong is reported
to the module that raised the interrupt, which then yields no value.
-/

namespace NativeBridge

variable {σ : Type}

/-- What the answer of a handler means: a handle to the result, a report for a fault of the
handler or of the interrupt, or nothing if the interrupt is left to the others. -/
def settle (scope : Scope) (label : String) (answer : HandlerAnswer) (vm : Vm σ) :
    Option (Handle × Vm σ) :=
  let fault (f : CallFault) : Handle × Vm σ :=
    let (report, vm) := vm.nativeFaultReport scope.site f
    (Handle.null, vm.push scope.module report)
  match answer with
  | .handled h =>
    some (if h.isNull || vm.isLive h then (h, vm) else fault (.staleReturn label))
  | .unhandled => none
  | .failed reason =>
    some (Handle.null, vm.report scope.site false .error (.interruptFailed label reason))
  | .panicked payload => some (fault (.panic label payload.message))

/-- Offers an interrupt to handlers in order, the first of which has the given place. -/
def offerInterrupt (enter : Enter σ) (id : ScopeId) (scope : Scope) (code : UInt16)
    (opcode : Opcode) (args : List Argument) :
    Nat → List (Handler σ) → Vm σ → Outcome σ Handle
  | _, [], vm =>
    .finished Handle.null
      (vm.report scope.site false .error (.interruptUnhandled (interruptLabel code opcode)))
  | place, handler :: others, vm =>
    (enter (handler id code opcode args) (.handed id)
      (vm.record (.entered (.handler place code opcode args)))).bind fun answer vm =>
        match settle scope (interruptLabel code opcode) answer.1 vm with
        | some (h, vm) => .finished h vm
        | none => offerInterrupt enter id scope code opcode args (place + 1) others vm

/-- Raises an interrupt through an open scope. It is offered to the handlers that are registered
by now. -/
def raiseInterrupt (enter : Enter σ) (id : ScopeId) (scope : Scope) (code : UInt16)
    (opcode : Opcode) (args : List Argument) (vm : Vm σ) : Outcome σ Handle :=
  offerInterrupt enter id scope code opcode args 0 vm.handlers
    (vm.record (.interrupted code opcode args.length))

end NativeBridge
