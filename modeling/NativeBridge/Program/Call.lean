import NativeBridge.Program

/-!
# Calls of one shape

A program that knows which shape it wants gets the payload of the result itself.
-/

namespace NativeBridge

namespace Program

variable {σ : Type} {r : Role} {α : Type} [ToArguments α]

/-- Calls and hands a reading of the result to the rest of the program. -/
def callAs {β : Type} (shape : Shape) (payload : Result → β) (scope : ScopeId)
    (function : Handle) (args : α) (next : Except BridgeError β → Program σ r) : Program σ r :=
  .call scope function shape (toArguments args) fun result => next (result.map payload)

/-- Calls and discards the result. -/
def callVoid (scope : ScopeId) (function : Handle) (args : α)
    (next : Except BridgeError Unit → Program σ r) : Program σ r :=
  callAs .void (fun _ => ()) scope function args next

/-- Calls and wants a byte. -/
def callByte (scope : ScopeId) (function : Handle) (args : α)
    (next : Except BridgeError Int8 → Program σ r) : Program σ r :=
  callAs (.scalar .byte) Result.toInt8 scope function args next

/-- Calls and wants a short. -/
def callShort (scope : ScopeId) (function : Handle) (args : α)
    (next : Except BridgeError Int16 → Program σ r) : Program σ r :=
  callAs (.scalar .short) Result.toInt16 scope function args next

/-- Calls and wants an int. -/
def callInt (scope : ScopeId) (function : Handle) (args : α)
    (next : Except BridgeError Int32 → Program σ r) : Program σ r :=
  callAs (.scalar .int) Result.toInt32 scope function args next

/-- Calls and wants a long. -/
def callLong (scope : ScopeId) (function : Handle) (args : α)
    (next : Except BridgeError Int64 → Program σ r) : Program σ r :=
  callAs (.scalar .long) Result.toInt64 scope function args next

/-- Calls and wants a text. -/
def callText (scope : ScopeId) (function : Handle) (args : α)
    (next : Except BridgeError String → Program σ r) : Program σ r :=
  callAs (.scalar .string) Result.toText scope function args next

/-- Calls and wants a handle to whatever the callee produced. -/
def callHandle (scope : ScopeId) (function : Handle) (args : α)
    (next : Except BridgeError Handle → Program σ r) : Program σ r :=
  callAs .handle Result.toHandle scope function args next

end Program

end NativeBridge
