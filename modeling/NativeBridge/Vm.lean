import NativeBridge.Handle.Table
import NativeBridge.Program
import NativeBridge.Registrar

/-!
# Machines

A machine owns a table of objects (scalars, modules, functions and heap blocks), the modules by
name, the report queues, the heap counters, the interrupt handlers and the scopes that are open.
Its journal holds every event since the beginning. The memory is the state that the programs
running on the machine keep for themselves.
-/

namespace NativeBridge

/-- A module. -/
structure Module where
  name : String
  /-- The functions by name. -/
  functions : Dict String Handle
  /-- The function that owns the top-level code. -/
  init : Handle

/-- What runs when a function is entered. -/
inductive Body (σ : Type) where
  | native (body : NativeBody σ)
  | script (body : ScriptBody σ)

/-- A function of a module. -/
structure Function (σ : Type) where
  name : String
  /-- The module that the function belongs to. -/
  module : Handle
  /-- How many arguments the function takes. -/
  argc : UInt64
  body : Body σ

/-- What a handle addresses. -/
inductive Object (σ : Type) where
  | scalar (s : Scalar)
  | module (m : Module)
  | function (f : Function σ)
  | block (b : Heap.Block)

namespace Object

variable {σ : Type}

/-- The kind of an object. -/
def kind : Object σ → Kind
  | scalar s => .scalar s.type
  | module _ => .module
  | function _ => .function
  | block _ => .block

/-- Whether an object is an integer. -/
def isNumber : Object σ → Bool
  | scalar s => s.isNumber
  | _ => false

/-- The value that stands for an object addressed by `h`: scalars stand for themselves, all
others are referred to. -/
def value (h : Handle) : Object σ → Value
  | scalar s => .scalar s
  | _ => .ref h

end Object

/-- Where an operation was made. -/
structure Site where
  module : Handle
  function : Handle
  deriving DecidableEq

/-- An open scope: the module and the function at work, and the scalars minted through it. -/
structure Scope where
  module : Handle
  function : Handle
  /-- The scalars minted through the scope, in that order. -/
  locals : List Handle

/-- The site of the operations made through a scope. -/
def Scope.site (s : Scope) : Site := ⟨s.module, s.function⟩

/-- A scope field by field. -/
def Scope.details (s : Scope) : String :=
  "EngineEnvironment \x7b " ++
    s!"module: {s.module}, function: {s.function}, locals: {s.locals.length}" ++ " \x7d"

/-- A machine, with a memory of type `σ` for the programs that run on it. -/
structure Vm (σ : Type) where
  options : Options
  /-- All objects. -/
  table : Handle.Table (Object σ)
  /-- The modules by name. -/
  modules : Dict String Handle
  /-- The reports of each module. -/
  diagnostics : Diagnostics
  /-- The heap counters. -/
  heap : Heap.Stats
  /-- The interrupt handlers, in the order of registration. -/
  handlers : List (Handler σ)
  /-- The scopes that are open. -/
  scopes : Dict ScopeId Scope
  /-- The number of scopes opened so far. -/
  scopesOpened : Nat
  /-- The number of faults that occurred so far. -/
  faultsOccurred : Nat
  /-- Every event so far, the earliest in front. -/
  journal : Array Event
  /-- What the programs remember. -/
  memory : σ

namespace Vm

variable {σ : Type}

/-- A machine that owns nothing yet. -/
def new (options : Options) (memory : σ) : Vm σ where
  options := options
  table := .empty
  modules := .empty
  diagnostics := .ofCapacity options.maxDiagnostics.toNat
  heap := .zero
  handlers := []
  scopes := .empty
  scopesOpened := 0
  faultsOccurred := 0
  journal := #[]
  memory := memory

/-- Adds an event to the journal. -/
def record (vm : Vm σ) (e : Event) : Vm σ := { vm with journal := vm.journal.push e }

/-- What `h` addresses. -/
def object? (vm : Vm σ) (h : Handle) : Option (Object σ) := vm.table.get? h

/-- Whether `h` addresses something. -/
def isLive (vm : Vm σ) (h : Handle) : Bool := vm.table.contains h

/-- What the machine has at present. -/
def usage (vm : Vm σ) : Usage := ⟨vm.modules.size, vm.table.live, vm.heap⟩

/-! ### Reports -/

/-- Adds a report to the queue of an owner. The report is logged if reports are, and a report
that has to leave the queue for it is logged in any case. -/
def push (vm : Vm σ) (owner : Handle) (r : Report) : Vm σ :=
  let logged := if vm.options.logDiagnostics then vm.record (.reported r) else vm
  let dropped :=
    match vm.diagnostics.evicted? owner with
    | some old => logged.record (.reportDropped owner old)
    | none => logged
  { dropped with diagnostics := vm.diagnostics.push owner r }

/-- Adds a report without a cause to the queue of the module of a site. -/
def report (vm : Vm σ) (site : Site) (causedByNative : Bool) (severity : Severity)
    (message : Message) : Vm σ :=
  vm.push site.module ⟨site.module, site.function, causedByNative, severity, none, message⟩

/-- A new occurrence of a fault. -/
def occur (vm : Vm σ) (fault : Fault) : Cause × Vm σ :=
  (⟨vm.faultsOccurred, fault⟩, { vm with faultsOccurred := vm.faultsOccurred + 1 })

/-- A report of a fault of native code. -/
def nativeFaultReport (vm : Vm σ) (site : Site) (fault : CallFault) : Report × Vm σ :=
  let (cause, vm) := vm.occur (.call fault)
  (⟨site.module, site.function, true, .critical, some cause, .nativeFault fault⟩, vm)

/-- A report of a fault of a script function named `name`. -/
def scriptFaultReport (vm : Vm σ) (site : Site) (name : String) (error : ScriptError) :
    Report × Vm σ :=
  let (cause, vm) := vm.occur (.script error)
  (⟨site.module, site.function, false, .critical, some cause, .scriptFault name⟩, vm)

end Vm

end NativeBridge
