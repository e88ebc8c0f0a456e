import NativeBridge.Diagnostics.Report

/-!
# Options

What a machine is configured with: a budget of heap slots, the capacity of the report queues,
whether reports are logged, and the severity of the reports that the machine raises on its own
account.
-/

namespace NativeBridge

/-- The configuration of a machine. -/
structure Options where
  /-- Slots that all live heap blocks may have together. -/
  maxHeapSlots : UInt64
  /-- Reports that a module's queue holds before the oldest is dropped. -/
  maxDiagnostics : UInt64
  /-- Whether every report is logged. -/
  logDiagnostics : Bool
  /-- The severity of the reports that the machine raises on its own account. -/
  defaultSeverity : Severity
  deriving DecidableEq

/-- Why a configuration is refused. -/
inductive OptionsError where
  /-- The document is not well formed, or an option in it is unknown or of another type. -/
  | malformed
  /-- An option is out of its range. -/
  | invalid (option reason : String)
  deriving DecidableEq

/-- The wording of an error, where it is more than that the document is malformed. -/
def OptionsError.message? : OptionsError → Option String
  | malformed => none
  | invalid option reason => some s!"Invalid bridge option `{option}`: {reason}"

namespace Options

/-- A budget of 2^20 slots, 256 reports a queue, reports logged, and warnings. -/
def default : Options := ⟨1048576, 256, true, .warning⟩

instance : Inhabited Options := ⟨default⟩

/-- Refuses a configuration without room for a report. -/
def validate (o : Options) : Except OptionsError Options :=
  if o.maxDiagnostics = 0 then .error (.invalid "max_diagnostics" "must be at least 1")
  else .ok o

end Options

end NativeBridge
