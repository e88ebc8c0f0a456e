import NativeBridge.Vm

/-!
# Frames and outcomes

A program runs in a *frame*, which knows the scopes that the program holds: those that it was
handed, if any, and those that it opened. The *outcome* of a run is an answer, or the reason for
which the run halted before its end; either way it has the machine as the run leaves it.
-/

namespace NativeBridge

variable {σ α β : Type}

/-- Why a run halts before its program ends. -/
inductive Halt where
  /-- Programs entered each other more deeply than the fuel allows. -/
  | outOfFuel
  /-- A program named a scope that it does not hold. -/
  | scopeNotHeld (scope : ScopeId)
  deriving DecidableEq

/-- What comes of a run. -/
inductive Outcome (σ α : Type) where
  /-- The run ended with an answer. -/
  | finished (answer : α) (vm : Vm σ)
  /-- The run halted. -/
  | halted (why : Halt) (vm : Vm σ)

namespace Outcome

/-- The machine as the run leaves it. -/
def vm : Outcome σ α → Vm σ
  | finished _ vm => vm
  | halted _ vm => vm

/-- The answer of a run that ended. -/
def answer? : Outcome σ α → Option α
  | finished answer _ => some answer
  | halted _ _ => none

/-- Goes on with the answer of a run that ended. -/
@[inline] def bind (o : Outcome σ α) (next : α → Vm σ → Outcome σ β) : Outcome σ β :=
  match o with
  | finished answer vm => next answer vm
  | halted why vm => halted why vm

@[simp] theorem bind_finished (answer : α) (vm : Vm σ) (next : α → Vm σ → Outcome σ β) :
    (finished answer vm).bind next = next answer vm := rfl

@[simp] theorem bind_halted (why : Halt) (vm : Vm σ) (next : α → Vm σ → Outcome σ β) :
    (halted why vm : Outcome σ α).bind next = halted why vm := rfl

end Outcome

/-- What a program holds while it runs. -/
structure Frame (σ : Type) where
  /-- The scopes that the program was handed. It may use them but not close them. -/
  given : List ScopeId
  /-- The scopes that the program opened and did not close, in the order of opening. -/
  opened : List ScopeId
  /-- The functions that a loader registered so far. -/
  registrar : Registrar (NativeFunction σ)

namespace Frame

/-- The frame of a program that was handed nothing. -/
def bare : Frame σ := ⟨[], [], .new ""⟩

/-- The frame of a program that was handed a scope. -/
def handed (id : ScopeId) : Frame σ := ⟨[id], [], .new ""⟩

/-- The frame of the loader of a library, which was lent scopes by the program that loads it. -/
def loading (library : String) (lent : List ScopeId) : Frame σ := ⟨lent, [], .new library⟩

/-- The scopes that the program may use. -/
def held (frame : Frame σ) : List ScopeId := frame.given ++ frame.opened

/-- Whether the program may use a scope. -/
def holds (frame : Frame σ) (id : ScopeId) : Bool := decide (id ∈ frame.held)

/-- The scope of a name, if the program may use it. -/
def scope? (frame : Frame σ) (vm : Vm σ) (id : ScopeId) : Option Scope :=
  if frame.holds id then vm.scopes.get? id else none

/-- Adds a scope to those that the program opened. -/
def addScope (frame : Frame σ) (id : ScopeId) : Frame σ :=
  { frame with opened := frame.opened ++ [id] }

/-- Removes a scope from those that the program opened. -/
def dropScope (frame : Frame σ) (id : ScopeId) : Frame σ :=
  { frame with opened := frame.opened.filter (· ≠ id) }

end Frame

/-- A way to enter programs. A program is entered in a frame that it starts with; it yields its
answer and the functions that it registered. -/
abbrev Enter (σ : Type) :=
  {r : Role} → Program σ r → Frame σ → Vm σ →
    Outcome σ (Answer r × Registrar (NativeFunction σ))

end NativeBridge
