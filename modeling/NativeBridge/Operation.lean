import NativeBridge.Argument
import NativeBridge.Diagnostics
import NativeBridge.Event
import NativeBridge.Heap.Block
import NativeBridge.Options

/-!
# Operations

The requests that a machine answers at once, without entering code that is not its own, each
with the type of its reply. Operations of the first kind are made through a *scope*, which says
for which module and function they are made and owns the scalars that they mint. Operations of
the second kind are the host's.
-/

namespace NativeBridge

/-- The name of a scope, unique in the life of a machine. -/
structure ScopeId where
  /-- How many scopes were opened before. -/
  number : Nat
  deriving DecidableEq

/-- Operations through a scope. -/
inductive ScopeOp where
  /-- The module of the scope. -/
  | currentModule
  /-- The function of the scope. -/
  | currentFunction
  /-- The number of scalars that the scope has minted. -/
  | localCount
  /-- The scope field by field. -/
  | details
  /-- The module of a name. -/
  | getModule (name : String)
  /-- The function of a name in the module of the scope. -/
  | getFunction (name : String)
  /-- The function of a name in a given module. -/
  | getFunctionIn (module : Handle) (name : String)
  /-- The latest report of the module of the scope, left in its queue. -/
  | latestReport
  /-- The latest report of the module of the scope, taken from its queue. -/
  | takeReport
  /-- All reports of the module of the scope, taken from its queue, oldest first. -/
  | takeReports
  /-- The integer that `h` addresses, cut to a width; a strict access takes no other width. -/
  | getNumber (width : Width) (h : Handle) (strict : Bool)
  /-- The text that `h` addresses. -/
  | getText (h : Handle)
  /-- A new handle to a scalar. -/
  | mint (s : Scalar)
  /-- Whether `h` addresses something of a kind. -/
  | isKind (h : Handle) (kind : Kind)
  /-- Whether `h` addresses an integer. -/
  | isNumber (h : Handle)
  /-- A new block. -/
  | alloc (size : UInt64)
  /-- The block with another size; the null handle allocates and size zero frees. -/
  | resize (block : Handle) (size : UInt64)
  /-- Ends the life of a block. -/
  | free (block : Handle)
  /-- The number of cells of a block. -/
  | blockSize (block : Handle)
  /-- A handle to what a cell holds. -/
  | read (block : Handle) (offset : UInt64)
  /-- Stores what `value` addresses in a cell. -/
  | write (block : Handle) (offset : UInt64) (value : Handle)

/-- The reply to an operation through a scope. -/
def ScopeOp.Reply : ScopeOp → Type
  | currentModule => Handle
  | currentFunction => Handle
  | localCount => Nat
  | details => String
  | getModule _ => Option Handle
  | getFunction _ => Option Handle
  | getFunctionIn _ _ => Except BridgeError (Option Handle)
  | latestReport => Option Report
  | takeReport => Option Report
  | takeReports => List Report
  | getNumber width _ _ => Except BridgeError width.Word
  | getText _ => Except BridgeError String
  | mint _ => Handle
  | isKind _ _ => Bool
  | isNumber _ => Bool
  | alloc _ => Option Handle
  | resize _ _ => Option Handle
  | free _ => Unit
  | blockSize _ => Except BridgeError UInt64
  | read _ _ => Except BridgeError Handle
  | write _ _ _ => Except BridgeError Unit

/-- What a machine has at present. -/
structure Usage where
  /-- Modules. -/
  modules : Nat
  /-- Handles that address something. -/
  liveHandles : Nat
  /-- Heap counters. -/
  heap : Heap.Stats

/-- A usage field by field. -/
def Usage.details (u : Usage) : String :=
  "Vm \x7b " ++ s!"modules: {u.modules}, live_handles: {u.liveHandles}, heap: HeapStats " ++
    "\x7b " ++ s!"live_blocks: {u.heap.liveBlocks.toNat}, " ++
    s!"used_slots: {u.heap.usedSlots.toNat}" ++ " \x7d \x7d"

/-- Operations of the host. -/
inductive HostOp where
  /-- A new module without functions. -/
  | defineModule (name : String)
  /-- The module of a name. -/
  | getModule (name : String)
  /-- The function of a name in the module of a name. -/
  | getFunction (module name : String)
  /-- Protects a cell of a block. -/
  | protect (block : Handle) (offset : UInt64) (protection : Heap.Protection)
  /-- What `h` addresses, as a value. -/
  | value (h : Handle)
  /-- Ends the life of a scalar before its scope is closed. -/
  | release (h : Handle)
  /-- Whether `h` addresses something. -/
  | isLive (h : Handle)
  /-- The number of reports in the queue of a module. -/
  | pending (module : Handle)
  /-- The data of the reports in the queue of a module. -/
  | dumpReports (module : Handle)
  /-- The configuration. -/
  | options
  /-- What the machine has at present. -/
  | usage
  /-- The events from a given place in the journal on. -/
  | eventsFrom (place : Nat)

/-- The reply to an operation of the host. -/
def HostOp.Reply : HostOp → Type
  | defineModule _ => Except LoadError Handle
  | getModule _ => Option Handle
  | getFunction _ _ => Option Handle
  | protect _ _ _ => Except BridgeError Unit
  | value _ => Option Value
  | release _ => Bool
  | isLive _ => Bool
  | pending _ => Nat
  | dumpReports _ => Json
  | options => Options
  | usage => Usage
  | eventsFrom _ => List Event

end NativeBridge
