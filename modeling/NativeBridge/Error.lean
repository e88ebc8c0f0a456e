import NativeBridge.Text.Quoted
import NativeBridge.Value

/-!
# Errors

Two kinds of faults abort an operation at once: a handle that does not address what the
operation needs, and an access that a protection forbids. Loading adds the faults of names. Each
error is its cause; `message` gives the wording.
-/

namespace NativeBridge

/-- Why a handle does not serve an operation. -/
inductive HandleFault where
  /-- The handle addresses something of another kind than `wanted`. -/
  | addresses (h : Handle) (found wanted : Kind)
  /-- The handle addresses nothing where something of kind `wanted` was needed. -/
  | addressesNothing (h : Handle) (wanted : Kind)
  /-- The handle addresses nothing of kind `wanted`. -/
  | isNot (h : Handle) (wanted : Kind)
  /-- A strict access found a scalar of another width. -/
  | otherWidth (h : Handle) (found : ScalarType) (wanted : Width)
  /-- A numeric access found a text. -/
  | notNumber (h : Handle) (found : ScalarType)
  /-- A textual access found a number. -/
  | notText (h : Handle) (found : ScalarType)
  /-- An offset beyond the last cell of a block of `size` cells. -/
  | outOfBounds (h : Handle) (offset : UInt64) (size : UInt64)
  /-- The value to store is addressed by a handle that addresses nothing. -/
  | staleStore (value : Handle)
  /-- An argument is a handle that addresses nothing. -/
  | staleArgument (h : Handle)
  /-- A function was given a number of arguments that it does not take. -/
  | arity (function : String) (argc : UInt64) (given : Nat)
  /-- A reason in the words of whoever raises the fault. -/
  | other (reason : String)
  deriving DecidableEq

/-- What an error calls the thing that it expects. -/
def Kind.expectation : Kind → String
  | .block => "a heap block"
  | k => k.name

/-- What an error says that a handle is not. -/
def Kind.role : Kind → String
  | .block => "heap block"
  | k => k.name

/-- The wording for a number of arguments that a function does not take. -/
def arityText (function : String) (argc : UInt64) (given : Nat) : String :=
  s!"function `{function}` expects {argc.toNat} arguments, got {given}"

/-- The wording of a fault. -/
def HandleFault.message : HandleFault → String
  | addresses h found .block => s!"{h} addresses a {found.name}, not a heap block"
  | addresses h found wanted => s!"{h} addresses a {found.name}, expected {wanted.name}"
  | addressesNothing h wanted => s!"{h} is null or stale, expected {wanted.expectation}"
  | isNot h wanted => s!"{h} is not a {wanted.role}"
  | otherWidth h found wanted =>
    s!"{h} holds a {found.name}, strict access expected {wanted.name}"
  | notNumber h found => s!"{h} holds a {found.name}, expected a number"
  | notText h found => s!"{h} holds a {found.name}, expected string"
  | outOfBounds h offset size =>
    s!"offset {offset.toNat} out of bounds for {h} (len={size.toNat})"
  | staleStore value => s!"cannot store stale {value}"
  | staleArgument h => s!"argument {h} is stale"
  | arity function argc given => arityText function argc given
  | other reason => reason

/-- Why a protection forbids an access. -/
inductive AccessFault where
  /-- A read of a cell on which reads fault. -/
  | read (h : Handle) (offset : UInt64)
  /-- A write to a cell on which writes fault. -/
  | write (h : Handle) (offset : UInt64)
  /-- A reason in the words of whoever raises the fault. -/
  | other (reason : String)
  deriving DecidableEq

/-- The wording of a fault. -/
def AccessFault.message : AccessFault → String
  | read h offset => s!"read of protected offset {offset.toNat} in {h}"
  | write h offset => s!"write to protected offset {offset.toNat} in {h}"
  | other reason => reason

/-- Faults that abort an operation at once. -/
inductive BridgeError where
  | badHandle (fault : HandleFault)
  | security (fault : AccessFault)
  deriving DecidableEq

namespace BridgeError

/-- The wording of an error. -/
def message : BridgeError → String
  | badHandle fault => "Bad handle: " ++ fault.message
  | security fault => "Security violation: " ++ fault.message

/-- Whether a handle is at fault. -/
def isBadHandle : BridgeError → Bool
  | badHandle _ => true
  | security _ => false

/-- Whether a protection forbids the access. -/
def isSecurity : BridgeError → Bool
  | badHandle _ => false
  | security _ => true

end BridgeError

/-- Faults of defining modules and functions. -/
inductive LoadError where
  | duplicateModule (name : String)
  | duplicateFunction (module name : String)
  /-- The name is empty or reserved. -/
  | invalidName (name : String)
  | bridge (error : BridgeError)
  deriving DecidableEq

/-- The wording of an error. -/
def LoadError.message : LoadError → String
  | duplicateModule name => s!"Duplicate module: {name}"
  | duplicateFunction module name => s!"Duplicate function: {name} in {module}"
  | invalidName name => s!"Invalid name: {Text.quoted name}"
  | bridge error => error.message

/-- Faults that the body of a script function raises. -/
inductive ScriptError where
  | trap (message : String)
  | typeMismatch (expected got : String)
  deriving DecidableEq

/-- The wording of an error. -/
def ScriptError.message : ScriptError → String
  | trap message => s!"Script trapped: {message}"
  | typeMismatch expected got => s!"Type mismatch: expected {expected}, got {got}"

/-- Faults of native code that the machine called. -/
inductive CallFault where
  /-- The code panicked. -/
  | panic (function message : String)
  /-- The code returned a handle that addresses nothing. -/
  | staleReturn (function : String)
  deriving DecidableEq

/-- The wording of a fault. -/
def CallFault.message : CallFault → String
  | panic function message => s!"`{function}` panicked: {message}"
  | staleReturn function => s!"`{function}` returned a stale handle"

end NativeBridge
