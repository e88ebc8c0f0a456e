import NativeBridge.Run.Call
import NativeBridge.Run.Interrupt
import NativeBridge.Run.Library

/-!
# Running programs

Requests that the machine answers at once are single steps. A call, an invocation, an interrupt
and the loading of a library enter other programs, each in a frame of its own, and go on with
their answers. A loader is lent the scopes of the program that loads its library. The scopes that
a program opened and left open are closed when it ends.

Programs may enter each other to any depth, so a run has fuel for a depth of entries. A run that
is out of fuel halts, and so does one in which a program names a scope that it does not hold; a
run that halts leaves the machine as it was at that moment.
-/

namespace NativeBridge

variable {σ : Type}

/-- Opens a scope at a site for the program of a frame, unless there is no such site. -/
def openAt (frame : Frame σ) (vm : Vm σ) :
    Except BridgeError Site → Except BridgeError ScopeId × Frame σ × Vm σ
  | .error e => (.error e, frame, vm)
  | .ok site =>
    let (id, vm) := vm.openScope site
    (.ok id, frame.addScope id, vm)

/-- Runs a program in a frame, entering other programs by `enter`. -/
def Program.eval (enter : Enter σ) {r : Role} :
    Program σ r → Frame σ → Vm σ → Outcome σ (Answer r × Frame σ)
  | .done answer, frame, vm => .finished (answer, frame) vm
  | .within id op next, frame, vm =>
    match frame.scope? vm id with
    | none => .halted (.scopeNotHeld id) vm
    | some scope =>
      let (reply, vm) := op.perform vm id scope
      (next reply).eval enter frame vm
  | .host op next, frame, vm =>
    let (reply, vm) := op.perform vm
    (next reply).eval enter frame vm
  | .call id function shape args next, frame, vm =>
    match frame.scope? vm id with
    | none => .halted (.scopeNotHeld id) vm
    | some scope =>
      (callFunction enter id scope function shape args vm).bind fun result vm =>
        (next result).eval enter frame vm
  | .interrupt id code opcode args next, frame, vm =>
    match frame.scope? vm id with
    | none => .halted (.scopeNotHeld id) vm
    | some scope =>
      (raiseInterrupt enter id scope code opcode args vm).bind fun h vm =>
        (next h).eval enter frame vm
  | .invoke function args next, frame, vm =>
    (invokeFunction enter function args vm).bind fun result vm =>
      (next result).eval enter frame vm
  | .openFunction function next, frame, vm =>
    let (result, frame, vm) := openAt frame vm (vm.functionSite function)
    (next result).eval enter frame vm
  | .openModule module next, frame, vm =>
    let (result, frame, vm) := openAt frame vm (vm.moduleSite module)
    (next result).eval enter frame vm
  | .close id next, frame, vm =>
    if id ∈ frame.opened then next.eval enter (frame.dropScope id) (vm.closeScope id)
    else .halted (.scopeNotHeld id) vm
  | .defineScript module name argc body next, frame, vm =>
    let (result, vm) := vm.defineScript module name argc body
    (next result).eval enter frame vm
  | .loadLibrary module loader next, frame, vm =>
    (NativeBridge.loadLibrary enter frame.held module loader vm).bind fun result vm =>
      (next result).eval enter frame vm
  | .register name argc body next, frame, vm =>
    let verdict := frame.registrar.verdict name
    (next (decide (verdict = .accepted))).eval enter
      { frame with registrar := frame.registrar.insert name ⟨argc, body⟩ }
      (recordRegistration frame.registrar.library name verdict vm)
  | .addHandler handler next, frame, vm =>
    next.eval enter frame { vm with handlers := vm.handlers ++ [handler] }
  | .recall next, frame, vm => (next vm.memory).eval enter frame vm
  | .remember memory next, frame, vm => next.eval enter frame { vm with memory := memory }

/-- Runs a program from its start to its end, with fuel for a depth of entries, and closes the
scopes that it left open. -/
def run : Nat → Enter σ
  | 0 => fun _ _ vm => .halted .outOfFuel vm
  | fuel + 1 => fun program frame vm =>
    (program.eval (run fuel) frame vm).bind fun answer vm =>
      .finished (answer.1, answer.2.registrar) (vm.closeScopes answer.2.opened)

end NativeBridge
