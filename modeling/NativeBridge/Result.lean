import NativeBridge.Value

/-!
# Results of calls

A caller names the *shape* in which it wants the result of a call, and always receives a result
of that shape: where the callee's value does not fit, the default of the shape stands in.
-/

namespace NativeBridge

/-- The shape in which a caller wants a result. -/
inductive Shape where
  /-- The result is discarded. -/
  | void
  | scalar (t : ScalarType)
  /-- A handle to whatever the callee produced. -/
  | handle
  deriving DecidableEq

/-- The word for a shape. -/
def Shape.name : Shape → String
  | void => "void"
  | scalar t => t.name
  | handle => "handle"

/-- The result of a call. -/
inductive Result where
  | void
  | scalar (s : Scalar)
  | handle (h : Handle)
  deriving DecidableEq

/-- The word for the type of what a callee produced. -/
def producedTypeName : Option Value → String
  | some value => value.typeName
  | none => "void"

namespace Result

/-- The shape of a result. -/
def shape : Result → Shape
  | void => .void
  | scalar s => .scalar s.type
  | handle _ => .handle

/-- What a degraded call yields: zero, the empty text or the null handle. -/
def default : Shape → Result
  | .void => void
  | .scalar t => scalar (.zero t)
  | .handle => handle Handle.null

/-- The value of a callee as a result of `shape`. A scalar fits the shape of its own type and no
other, every value fits the discarding shape, and a handle to a value is not a matter of its
representation alone. -/
def ofValue? (value : Option Value) : Shape → Option Result
  | .void => some void
  | .scalar t =>
    match value with
    | some (.scalar s) => if s.type = t then some (scalar s) else none
    | _ => none
  | .handle => none

/-- The byte of a result, zero if it holds none. -/
def toInt8 : Result → Int8
  | scalar (.byte v) => v
  | _ => 0

/-- The short of a result, zero if it holds none. -/
def toInt16 : Result → Int16
  | scalar (.short v) => v
  | _ => 0

/-- The int of a result, zero if it holds none. -/
def toInt32 : Result → Int32
  | scalar (.int v) => v
  | _ => 0

/-- The long of a result, zero if it holds none. -/
def toInt64 : Result → Int64
  | scalar (.long v) => v
  | _ => 0

/-- The text of a result, empty if it holds none. -/
def toText : Result → String
  | scalar (.string v) => v
  | _ => ""

/-- The handle of a result, null if it holds none. -/
def toHandle : Result → Handle
  | handle h => h
  | _ => Handle.null

@[simp] theorem shape_default (s : Shape) : (default s).shape = s := by
  cases s <;> simp [default, shape]

theorem shape_of_ofValue? {value : Option Value} {s : Shape} {r : Result}
    (h : ofValue? value s = some r) : r.shape = s := by
  unfold ofValue? at h
  split at h
  · cases h; rfl
  · split at h
    · split at h
      · next hs => cases h; simp [shape, hs]
      · cases h
    · cases h
  · cases h

end Result

end NativeBridge
