import NativeBridge.Vm.Blocks
import NativeBridge.Vm.Registry
import NativeBridge.Vm.Scopes

/-!
# Performing operations

Each operation is one step of a machine: from the state before it to a reply and the state after
it.
-/

namespace NativeBridge

variable {σ : Type}

/-- Keeps the state of an operation that fails. -/
def Vm.keepOnError (vm : Vm σ) : Except BridgeError (Vm σ) → Except BridgeError Unit × Vm σ
  | .ok vm => (.ok (), vm)
  | .error e => (.error e, vm)

/-- Performs an operation made through an open scope. -/
def ScopeOp.perform (vm : Vm σ) (id : ScopeId) (scope : Scope) :
    (op : ScopeOp) → op.Reply × Vm σ
  | currentModule => (scope.module, vm)
  | currentFunction => (scope.function, vm)
  | localCount => (scope.locals.length, vm)
  | details => (scope.details, vm)
  | getModule name => (vm.getModule name, vm)
  | getFunction name => ((vm.getFunctionIn scope.module name).toOption.join, vm)
  | getFunctionIn module name => (vm.getFunctionIn module name, vm)
  | latestReport => (vm.diagnostics.latest? scope.module, vm)
  | takeReport =>
    (vm.diagnostics.latest? scope.module,
      { vm with diagnostics := vm.diagnostics.pop scope.module })
  | takeReports =>
    (vm.diagnostics.queue scope.module,
      { vm with diagnostics := vm.diagnostics.clear scope.module })
  | getNumber width h strict => (vm.number width h strict, vm)
  | getText h => (vm.text h, vm)
  | mint s => vm.mint id (.scalar s)
  | isKind h kind => (vm.isKind h kind, vm)
  | isNumber h => (vm.isNumber h, vm)
  | alloc size => vm.alloc scope.site size
  | resize block size => vm.resize scope.site block size
  | free block => ((), vm.free scope.site block)
  | blockSize block => (vm.blockSize block, vm)
  | read block offset =>
    match vm.read block offset with
    | .error e => (.error e, vm)
    | .ok none => (.ok Handle.null, vm)
    | .ok (some v) =>
      let (h, vm) := vm.mint id v
      (.ok h, vm)
  | write block offset value => vm.keepOnError (vm.write block offset value)

/-- Performs an operation of the host. -/
def HostOp.perform (vm : Vm σ) : (op : HostOp) → op.Reply × Vm σ
  | defineModule name => vm.defineModule name
  | getModule name => (vm.getModule name, vm)
  | getFunction module name => (vm.getFunction module name, vm)
  | protect block offset protection => vm.keepOnError (vm.protect block offset protection)
  | value h => (vm.value? h, vm)
  | release h => vm.release h
  | isLive h => (vm.isLive h, vm)
  | pending module => (vm.diagnostics.pending module, vm)
  | dumpReports module => (vm.diagnostics.toJson module, vm)
  | options => (vm.options, vm)
  | usage => (vm.usage, vm)
  | eventsFrom place => ((vm.journal.extract place vm.journal.size).toList, vm)

end NativeBridge
