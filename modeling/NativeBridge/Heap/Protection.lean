/-!
# Protection

A slot of a heap block may fault on reads, on writes, on both or on neither.
-/

namespace NativeBridge

namespace Heap

/-- Which accesses to a slot fault. -/
structure Protection where
  /-- Reads fault. -/
  read : Bool
  /-- Writes fault. -/
  write : Bool
  deriving DecidableEq

namespace Protection

/-- Nothing faults. -/
def none : Protection := ⟨false, false⟩

/-- Reads fault, writes do not. -/
def reads : Protection := ⟨true, false⟩

/-- Writes fault, reads do not. -/
def writes : Protection := ⟨false, true⟩

/-- Reads and writes fault. -/
def all : Protection := ⟨true, true⟩

/-- What faults under either of two protections. -/
def union (p q : Protection) : Protection := ⟨p.read || q.read, p.write || q.write⟩

instance : OrOp Protection := ⟨union⟩

/-- Whether everything that faults under `q`, and that is something, faults under `p`. -/
def contains (p q : Protection) : Bool :=
  (!q.read || p.read) && (!q.write || p.write) && (q.read || q.write)

/-- The text of a protection. -/
def text : Protection → String
  | ⟨false, false⟩ => "Protection::NONE"
  | ⟨true, false⟩ => "Protection::READ"
  | ⟨false, true⟩ => "Protection::WRITE"
  | ⟨true, true⟩ => "Protection::ALL"

instance : ToString Protection := ⟨text⟩

end Protection

end Heap

end NativeBridge
