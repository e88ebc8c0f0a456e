import NativeBridge.Run.Frame
import NativeBridge.Vm.Registry

/-!
# Loading native libraries

A library is loaded into the module of a name. Its loader runs first and registers functions;
then they are attached to the module, which is created if need be. Whether they can be is decided
on the machine as the loader leaves it.
-/

namespace NativeBridge

variable {σ : Type}

/-- Records why a registration is refused. -/
def recordRegistration (library name : String) (verdict : Registration) (vm : Vm σ) : Vm σ :=
  match verdict with
  | .accepted => vm
  | .invalidName => vm.record (.nameRejected library name)
  | .duplicate => vm.record (.nameTaken library name)

/-- Runs the loader of a library, which may use the scopes that it is lent, and attaches what it
registered. Under an invalid name the loader does not run. -/
def loadLibrary (enter : Enter σ) (lent : List ScopeId) (name : String)
    (loader : Program σ .loader) (vm : Vm σ) : Outcome σ (Except LoadError Handle) :=
  if validName name then
    (enter loader (.loading name lent) (vm.record (.entered (.loader name)))).bind fun answer vm =>
      let (result, vm) := vm.attachLibrary name answer.2.finish answer.2.rejected
      .finished result vm
  else .finished (.error (.invalidName name)) vm

end NativeBridge
