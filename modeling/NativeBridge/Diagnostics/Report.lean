import NativeBridge.Error
import NativeBridge.Json
import NativeBridge.Result

/-!
# Reports

A fault that the machine can route around is recorded as a *report*: where it occurred, whether
native code produced it, how severe it is, what lies behind it and a message. Messages are given
by their meaning; `Message.text` is the wording.
-/

namespace NativeBridge

/-- Levels of severity, higher ones more severe. -/
abbrev Severity := UInt32

namespace Severity

/-- The call produced its normal result. -/
def notice : Severity := 0

/-- A default stands in for the result. -/
def warning : Severity := 1

/-- The operation was skipped. -/
def error : Severity := 2

/-- A callee faulted while it ran. -/
def critical : Severity := 3

end Severity

/-- What lies behind a report. -/
inductive Fault where
  | script (error : ScriptError)
  | call (fault : CallFault)
  | bridge (error : BridgeError)
  deriving DecidableEq

/-- The wording of a fault. -/
def Fault.message : Fault → String
  | script error => error.message
  | call fault => fault.message
  | bridge error => error.message

/-- An occurrence of a fault. Two occurrences are told apart by their number, so that a report is
recognised as the same report even among others that read alike. -/
structure Cause where
  /-- The number of the occurrence. -/
  occurrence : Nat
  /-- What occurred. -/
  fault : Fault
  deriving DecidableEq

/-- What a report says. -/
inductive Message where
  /-- A call with a number of arguments that the function does not take. -/
  | arity (function : String) (argc : UInt64) (given : Nat)
  /-- A callee produced something of a type that does not fit the shape that the caller wants. -/
  | shape (function found : String) (wanted : Shape)
  /-- A script function faulted. -/
  | scriptFault (function : String)
  /-- Native code faulted. -/
  | nativeFault (fault : CallFault)
  /-- An allocation over the budget. -/
  | allocation (size used budget : UInt64)
  /-- A resize over the budget. -/
  | resize (block : Handle) (size used budget : UInt64)
  /-- A resize of what is no block. -/
  | badResize (error : BridgeError)
  /-- A release of what is no block. -/
  | badFree (error : BridgeError)
  /-- An interrupt that its handler failed. -/
  | interruptFailed (interrupt reason : String)
  /-- An interrupt that no handler accepted. -/
  | interruptUnhandled (interrupt : String)
  /-- Free wording. -/
  | other (text : String)
  deriving DecidableEq

/-- The wording of a message. -/
def Message.text : Message → String
  | arity function argc given => arityText function argc given
  | shape function found wanted =>
    s!"function `{function}` returned {found}, caller expected {wanted.name}"
  | scriptFault function => s!"function `{function}` faulted"
  | nativeFault fault => fault.message
  | allocation size used budget =>
    s!"allocation of {size.toNat} slots exceeds heap budget ({used.toNat}/{budget.toNat} used)"
  | resize block size used budget =>
    s!"resize of {block} to {size.toNat} slots exceeds heap budget " ++
      s!"({used.toNat}/{budget.toNat} used)"
  | badResize error => s!"re_alloc: {error.message}"
  | badFree error => s!"free: {error.message}"
  | interruptFailed interrupt reason => s!"{interrupt} failed: {reason}"
  | interruptUnhandled interrupt => s!"unhandled {interrupt}"
  | other text => text

/-- A recoverable fault. -/
structure Report where
  /-- The module in which the fault occurred. -/
  module : Handle
  /-- The function in which the fault occurred. -/
  function : Handle
  /-- Whether native code produced the fault. -/
  causedByNative : Bool
  /-- How severe the fault is. -/
  severity : Severity
  /-- What lies behind the fault. -/
  cause : Option Cause
  /-- What the report says. -/
  message : Message
  deriving DecidableEq

namespace Report

/-- Whether two reports agree in place, classification and wording, and have the very same
occurrence behind them. -/
def same (r s : Report) : Bool :=
  decide (r.module = s.module) && decide (r.function = s.function) &&
    r.causedByNative == s.causedByNative && r.severity == s.severity &&
    r.message.text == s.message.text &&
    r.cause.map Cause.occurrence == s.cause.map Cause.occurrence

/-- A report in one line: severity, message and cause. -/
def text (r : Report) : String :=
  s!"[severity {r.severity.toNat}] {r.message.text}" ++
    match r.cause with
    | some cause => s!" (caused by: {cause.fault.message})"
    | none => ""

/-- A report field by field. -/
def details (r : Report) : String :=
  let cause :=
    match r.cause with
    | some cause => s!"Some({Text.quoted cause.fault.message})"
    | none => "None"
  "DiagnosticReport \x7b " ++
    s!"module: {r.module}, function: {r.function}, caused_by_native: {r.causedByNative}, " ++
    s!"severity: {r.severity.toNat}, cause: {cause}, message: {Text.quoted r.message.text}" ++
    " \x7d"

/-- The data of a report; handles are given by their bits. -/
def toJson (r : Report) : Json :=
  .object [
    ("module", .number r.module.bits.toNat),
    ("function", .number r.function.bits.toNat),
    ("caused_by_native", .bool r.causedByNative),
    ("severity", .number r.severity.toNat),
    ("cause", (r.cause.map fun cause => .string cause.fault.message).getD .null),
    ("message", .string r.message.text)]

/-- The tree is an object that says of a report where it occurred, whether native code produced it,
how severe it is, what lies behind it, if anything does, and what it says. It has no other
members. -/
structure RenderedBy (r : Report) (j : Json) : Prop where
  names : j.names.Perm ["module", "function", "caused_by_native", "severity", "cause", "message"]
  module : j.member? "module" = some (.number r.module.bits.toNat)
  function : j.member? "function" = some (.number r.function.bits.toNat)
  causedByNative : j.member? "caused_by_native" = some (.bool r.causedByNative)
  severity : j.member? "severity" = some (.number r.severity.toNat)
  cause : ∀ c, r.cause = some c → j.member? "cause" = some (.string c.fault.message)
  noCause : r.cause = none → j.member? "cause" = some .null
  message : j.member? "message" = some (.string r.message.text)

theorem renderedBy_toJson (r : Report) : r.RenderedBy r.toJson where
  names := .refl _
  module := by simp [toJson]
  function := by simp [toJson]
  causedByNative := by simp [toJson]
  severity := by simp [toJson]
  cause c hc := by simp [toJson, hc]
  noCause hc := by simp [toJson, hc]
  message := by simp [toJson]

@[simp] theorem same_self (r : Report) : r.same r = true := by simp [same]

end Report

end NativeBridge
