import NativeBridge.Program

/-!
# Heap blocks as native code holds them

A block that was allocated or checked once, with the scope through which it is used. A block that
cannot be resized is handed back as it was; size zero is refused, since a block is released by
`free` and in no other way.
-/

namespace NativeBridge

/-- A handle to a block, and the scope for its use. -/
structure BlockRef where
  scope : ScopeId
  handle : Handle

namespace BlockRef

variable {σ : Type} {r : Role}

/-- A block by its handle. -/
def details (b : BlockRef) : String := s!"NativeBlock({b.handle})"

/-- A new block, unless the allocation fails. -/
def alloc (scope : ScopeId) (size : UInt64) (next : Option BlockRef → Program σ r) :
    Program σ r :=
  .within scope (.alloc size) fun h : Option Handle => next (h.map (⟨scope, ·⟩))

/-- The block that `h` addresses. It is an error if `h` addresses anything else. -/
def wrap (scope : ScopeId) (h : Handle) (next : Except BridgeError BlockRef → Program σ r) :
    Program σ r :=
  .within scope (.isKind h .block) fun found : Bool =>
    next (if found then .ok ⟨scope, h⟩ else .error (.badHandle (.isNot h .block)))

/-- The number of cells. -/
def size (b : BlockRef) (next : Except BridgeError UInt64 → Program σ r) : Program σ r :=
  .within b.scope (.blockSize b.handle) next

/-- Whether there are no cells. -/
def isEmpty (b : BlockRef) (next : Except BridgeError Bool → Program σ r) : Program σ r :=
  b.size fun n => next (n.map (· == 0))

/-- A handle to what a cell holds. -/
def get (b : BlockRef) (offset : UInt64) (next : Except BridgeError Handle → Program σ r) :
    Program σ r :=
  .within b.scope (.read b.handle offset) next

/-- The integer that a cell holds, cut or extended to an int. -/
def getInt (b : BlockRef) (offset : UInt64) (next : Except BridgeError Int32 → Program σ r) :
    Program σ r :=
  b.get offset fun
    | .ok h => .within b.scope (.getNumber .int h false) next
    | .error e => next (.error e)

/-- The text that a cell holds. -/
def getText (b : BlockRef) (offset : UInt64) (next : Except BridgeError String → Program σ r) :
    Program σ r :=
  b.get offset fun
    | .ok h => .within b.scope (.getText h) next
    | .error e => next (.error e)

/-- Stores what `value` addresses in a cell. -/
def set (b : BlockRef) (offset : UInt64) (value : Handle)
    (next : Except BridgeError Unit → Program σ r) : Program σ r :=
  .within b.scope (.write b.handle offset value) next

/-- The block with another size, or as an error the block as it was. -/
def resize (b : BlockRef) (n : UInt64) (next : Except BlockRef BlockRef → Program σ r) :
    Program σ r :=
  if n = 0 then next (.error b)
  else
    .within b.scope (.resize b.handle n) fun
      | some h => next (.ok ⟨b.scope, h⟩)
      | none => next (.error b)

/-- Releases the block. -/
def free (b : BlockRef) (next : Program σ r) : Program σ r :=
  .within b.scope (.free b.handle) fun _ => next

end BlockRef

end NativeBridge
