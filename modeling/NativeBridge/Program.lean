import NativeBridge.Operation

/-!
# Programs

All code that runs on a machine without being part of it is a *program*: a tree whose nodes are
requests to the machine and whose branches are the replies. Native functions, script functions,
interrupt handlers, library loaders and the host's own code are programs of different *roles*;
the role fixes what a program answers at its end, and only a loader may register functions.

Programs share a memory of type `σ`, the state that their code keeps outside the machine.
-/

namespace NativeBridge

/-- What a program serves as. -/
inductive Role where
  | native
  | script
  | handler
  | loader
  | host
  deriving DecidableEq

/-- What a panic carries. -/
inductive Payload where
  | text (s : String)
  /-- Anything that is not a text. -/
  | other
  deriving DecidableEq

/-- The wording of what a panic carries. -/
def Payload.message : Payload → String
  | text s => s
  | other => "non-string panic payload"

/-- How a native function ends. -/
inductive NativeAnswer where
  /-- With a handle to its result, null for none. -/
  | returned (h : Handle)
  | panicked (payload : Payload)
  deriving DecidableEq

/-- How an interrupt handler ends. -/
inductive HandlerAnswer where
  /-- The interrupt is handled, with a handle to the result, null for none. -/
  | handled (h : Handle)
  /-- The interrupt is not one of this handler's. -/
  | unhandled
  | failed (reason : String)
  | panicked (payload : Payload)
  deriving DecidableEq

/-- An interrupt that is handled without a result. -/
def HandlerAnswer.void : HandlerAnswer := handled Handle.null

/-- What a program answers at its end. -/
def Answer : Role → Type
  | .native => NativeAnswer
  | .script => Except ScriptError (Option Value)
  | .handler => HandlerAnswer
  | .loader => Unit
  | .host => Unit

instance : (r : Role) → Inhabited (Answer r)
  | .native => ⟨NativeAnswer.returned Handle.null⟩
  | .script => ⟨(Except.ok none : Except ScriptError (Option Value))⟩
  | .handler => ⟨HandlerAnswer.unhandled⟩
  | .loader => ⟨()⟩
  | .host => ⟨()⟩

/-- Programs of a role, over a memory of type `σ`. -/
inductive Program (σ : Type) : Role → Type where
  /-- Ends with an answer. -/
  | done {r : Role} (answer : Answer r) : Program σ r
  /-- Makes an operation through a scope. -/
  | within {r : Role} (scope : ScopeId) (op : ScopeOp) (next : op.Reply → Program σ r) :
    Program σ r
  /-- Makes an operation of the host. -/
  | host {r : Role} (op : HostOp) (next : op.Reply → Program σ r) : Program σ r
  /-- Calls a function through a scope and wants its result in a shape. -/
  | call {r : Role} (scope : ScopeId) (function : Handle) (shape : Shape) (args : List Argument)
    (next : Except BridgeError Result → Program σ r) : Program σ r
  /-- Raises an interrupt through a scope. -/
  | interrupt {r : Role} (scope : ScopeId) (id : UInt16) (opcode : Opcode)
    (args : List Argument) (next : Handle → Program σ r) : Program σ r
  /-- Invokes a function with values of the machine. -/
  | invoke {r : Role} (function : Handle) (args : List Value)
    (next : Except BridgeError (Option Value) → Program σ r) : Program σ r
  /-- Opens a scope for a function and its module. -/
  | openFunction {r : Role} (function : Handle)
    (next : Except BridgeError ScopeId → Program σ r) : Program σ r
  /-- Opens a scope for the top-level code of a module. -/
  | openModule {r : Role} (module : Handle)
    (next : Except BridgeError ScopeId → Program σ r) : Program σ r
  /-- Closes a scope that this program opened. -/
  | close {r : Role} (scope : ScopeId) (next : Program σ r) : Program σ r
  /-- Defines a script function in a module. -/
  | defineScript {r : Role} (module : Handle) (name : String) (argc : UInt64)
    (body : List Value → Program σ .script)
    (next : Except LoadError Handle → Program σ r) : Program σ r
  /-- Loads a native library into the module of a name. The loader is lent the scopes that this
  program holds. -/
  | loadLibrary {r : Role} (module : String) (loader : Program σ .loader)
    (next : Except LoadError Handle → Program σ r) : Program σ r
  /-- Registers a native function of the library being loaded. -/
  | register (name : String) (argc : UInt64)
    (body : ScopeId → List Argument → Program σ .native)
    (next : Bool → Program σ .loader) : Program σ .loader
  /-- Adds an interrupt handler behind those there are. -/
  | addHandler {r : Role}
    (handler : ScopeId → UInt16 → Opcode → List Argument → Program σ .handler)
    (next : Program σ r) : Program σ r
  /-- Looks at the memory. -/
  | recall {r : Role} (next : σ → Program σ r) : Program σ r
  /-- Replaces the memory. -/
  | remember {r : Role} (memory : σ) (next : Program σ r) : Program σ r

instance (σ : Type) (r : Role) : Inhabited (Program σ r) := ⟨.done default⟩

/-- The body of a script function. -/
abbrev ScriptBody (σ : Type) := List Value → Program σ .script

/-- The body of a native function: it receives a scope of its own and the arguments. -/
abbrev NativeBody (σ : Type) := ScopeId → List Argument → Program σ .native

/-- An interrupt handler: it receives the scope of the caller, the interrupt and the
arguments. -/
abbrev Handler (σ : Type) := ScopeId → UInt16 → Opcode → List Argument → Program σ .handler

/-- The handler that leaves every interrupt to the others. -/
def Handler.noop {σ : Type} : Handler σ := fun _ _ _ _ => .done HandlerAnswer.unhandled

/-- A native function: how many arguments it takes, and its body. -/
structure NativeFunction (σ : Type) where
  argc : UInt64
  body : NativeBody σ

/-- A native function without its body. -/
def NativeFunction.details {σ : Type} (f : NativeFunction σ) : String :=
  "NativeFunction \x7b " ++ s!"argc: {f.argc.toNat}" ++ ", .. \x7d"

end NativeBridge
