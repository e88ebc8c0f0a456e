import NativeBridge.Argument
import NativeBridge.Diagnostics.Report
import NativeBridge.Interrupt

/-!
# Events

What a machine does leaves a trace of events. Most of them are log events, which have a level, a
message and fields; the others record that the machine entered code that is not its own. One log
event is left out: that a slot of the handle table is retired, at the end of its last generation.
-/

namespace NativeBridge

/-- Code that a machine enters, with what it hands over. -/
inductive Entry where
  /-- The body of a native function. -/
  | native (function : Handle) (args : List Argument)
  /-- The body of a script function. -/
  | script (function : Handle) (args : List Value)
  /-- The handler with this place in the order of registration. -/
  | handler (place : Nat) (id : UInt16) (opcode : Opcode) (args : List Argument)
  /-- The loader of a library. -/
  | loader (library : String)
  deriving DecidableEq

/-- What a machine does. -/
inductive Event where
  /-- A module was defined by its host. -/
  | moduleDefined (name : String) (module : Handle)
  /-- A native library was loaded into a module. -/
  | libraryLoaded (module : String) (functions rejected : Nat)
  /-- A library offered a function under an invalid name. -/
  | nameRejected (library name : String)
  /-- A library offered a second function under a name. -/
  | nameTaken (library name : String)
  | blockAllocated (block : Handle) (size : UInt64)
  | blockResized (block : Handle) (oldSize newSize : UInt64)
  | blockFreed (block : Handle) (size : UInt64)
  /-- A scope that had minted scalars was closed. -/
  | scalarsReleased (function : Handle) (released : Nat)
  /-- A call found its function and its arguments. -/
  | dispatched (function : String) (shape : Shape) (argc : Nat)
  /-- An interrupt is about to be handled. -/
  | interrupted (id : UInt16) (opcode : Opcode) (argc : Nat)
  /-- A report was queued while reports are logged. -/
  | reported (report : Report)
  /-- A report was dropped from a full queue. -/
  | reportDropped (owner : Handle) (report : Report)
  /-- The machine entered code that is not its own. -/
  | entered (entry : Entry)
  deriving DecidableEq

/-- Levels of log events. -/
inductive Level where
  | trace
  | debug
  | warn
  deriving DecidableEq

/-- The word for a level. -/
def Level.name : Level → String
  | trace => "TRACE"
  | debug => "DEBUG"
  | warn => "WARN"

/-- The content of a field of a log event. -/
inductive Field where
  | text (s : String)
  | flag (b : Bool)

/-- A log event as it is written. -/
structure LogLine where
  /-- The level. -/
  level : Level
  /-- The message. -/
  message : String
  /-- The named fields. -/
  fields : List (String × Field)

/-- A natural number as the content of a field. -/
def Field.nat (n : Nat) : Field := .text (toString n)

/-- A handle as the content of a field. -/
def Field.handle (h : Handle) : Field := .text h.text

/-- What the log says about an event. Entering code is not logged. -/
def Event.logLine? : Event → Option LogLine
  | moduleDefined name module =>
    some ⟨.debug, "module defined", [("module", .text name), ("handle", .handle module)]⟩
  | libraryLoaded module functions rejected =>
    some ⟨.debug, "native library loaded",
      [("module", .text module), ("functions", .nat functions), ("rejected", .nat rejected)]⟩
  | nameRejected library name =>
    some ⟨.warn, "rejected invalid native function name",
      [("library", .text library), ("name", .text name)]⟩
  | nameTaken library name =>
    some ⟨.warn, "duplicate native function ignored",
      [("library", .text library), ("name", .text name)]⟩
  | blockAllocated block size =>
    some ⟨.debug, "heap alloc", [("block", .handle block), ("size", .nat size.toNat)]⟩
  | blockResized block oldSize newSize =>
    some ⟨.debug, "heap resize",
      [("block", .handle block), ("old_size", .nat oldSize.toNat),
        ("new_size", .nat newSize.toNat)]⟩
  | blockFreed block size =>
    some ⟨.debug, "heap free", [("block", .handle block), ("size", .nat size.toNat)]⟩
  | scalarsReleased function released =>
    some ⟨.debug, "released local handles",
      [("function", .handle function), ("released", .nat released)]⟩
  | dispatched function shape argc =>
    some ⟨.trace, "dispatch",
      [("function", .text function), ("shape", .text shape.name), ("argc", .nat argc)]⟩
  | interrupted id opcode argc =>
    some ⟨.trace, "interrupt",
      [("id", .nat id.toNat), ("opcode", .nat opcode.packed.toNat), ("argc", .nat argc)]⟩
  | reported report =>
    some ⟨.warn, report.text,
      [("module", .handle report.module), ("function", .handle report.function),
        ("severity", .nat report.severity.toNat), ("native", .flag report.causedByNative)]⟩
  | reportDropped owner report =>
    some ⟨.warn, "diagnostics queue full, dropping oldest report",
      [("owner", .handle owner), ("dropped", .text report.text)]⟩
  | entered _ => none

end NativeBridge
