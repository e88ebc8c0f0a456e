import NativeBridge.Program.Call

/-!
# Functions as native code holds them

A function that was looked up or checked once, with the scope through which it is called.
-/

namespace NativeBridge

/-- A handle to a function, and the scope for its calls. -/
structure FunctionRef where
  scope : ScopeId
  handle : Handle

namespace FunctionRef

variable {σ : Type} {r : Role} {α : Type} [ToArguments α]

/-- A function by its handle. -/
def details (f : FunctionRef) : String := s!"Function({f.handle})"

/-- The function of a name in the module of the scope, if there is one. -/
def lookup (scope : ScopeId) (name : String) (next : Option FunctionRef → Program σ r) :
    Program σ r :=
  .within scope (.getFunction name) fun h : Option Handle => next (h.map (⟨scope, ·⟩))

/-- The function that `h` addresses. It is an error if `h` addresses anything else. -/
def wrap (scope : ScopeId) (h : Handle) (next : Except BridgeError FunctionRef → Program σ r) :
    Program σ r :=
  .within scope (.isKind h .function) fun found : Bool =>
    next (if found then .ok ⟨scope, h⟩ else .error (.badHandle (.isNot h .function)))

/-- Calls and discards the result. -/
def call (f : FunctionRef) (args : α) (next : Except BridgeError Unit → Program σ r) :
    Program σ r :=
  .callVoid f.scope f.handle args next

/-- Calls and wants an int. -/
def callInt (f : FunctionRef) (args : α) (next : Except BridgeError Int32 → Program σ r) :
    Program σ r :=
  .callInt f.scope f.handle args next

/-- Calls and wants a text. -/
def callText (f : FunctionRef) (args : α) (next : Except BridgeError String → Program σ r) :
    Program σ r :=
  .callText f.scope f.handle args next

/-- Calls and wants a handle to whatever the callee produced. -/
def callHandle (f : FunctionRef) (args : α) (next : Except BridgeError Handle → Program σ r) :
    Program σ r :=
  .callHandle f.scope f.handle args next

end FunctionRef

end NativeBridge
