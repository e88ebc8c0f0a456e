import NativeBridge.Value

/-!
# Arguments

What native code passes to a call: scalars by value, everything else by handle. `ToArguments` is
implemented by all that flattens into an ordered list of arguments, in particular by tuples that
end in `()`, whose components may be plain integers, texts and handles.
-/

namespace NativeBridge

/-- An argument of a call, as native code writes it and receives it. -/
inductive Argument where
  | scalar (s : Scalar)
  | handle (h : Handle)
  deriving DecidableEq

namespace Argument

/-- The word for the type of an argument. -/
def typeName : Argument → String
  | scalar s => s.type.name
  | handle _ => "handle"

/-- The integer of an argument of type `int`. -/
def toInt32? : Argument → Option Int32
  | scalar (.int v) => some v
  | _ => none

/-- The text of an argument of type `string`. -/
def toText? : Argument → Option String
  | scalar (.string v) => some v
  | _ => none

/-- The handle of an argument that is one. -/
def toHandle? : Argument → Option Handle
  | handle h => some h
  | _ => none

/-- The form in which native code receives a value of the machine. -/
def ofValue : Value → Argument
  | .null => handle Handle.null
  | .scalar s => scalar s
  | .ref h => handle h

end Argument

/-- Types whose elements are single arguments. -/
class ToArgument (α : Type) where
  /-- The argument. -/
  toArgument : α → Argument

export ToArgument (toArgument)

instance : ToArgument Argument := ⟨id⟩

instance : ToArgument Int8 := ⟨fun v => .scalar (.byte v)⟩

instance : ToArgument Int16 := ⟨fun v => .scalar (.short v)⟩

instance : ToArgument Int32 := ⟨fun v => .scalar (.int v)⟩

instance : ToArgument Int64 := ⟨fun v => .scalar (.long v)⟩

instance : ToArgument String := ⟨fun v => .scalar (.string v)⟩

instance : ToArgument Handle := ⟨.handle⟩

/-- Types whose elements flatten into a list of arguments, in order. -/
class ToArguments (α : Type) where
  /-- The arguments, in order. -/
  toArguments : α → List Argument

export ToArguments (toArguments)

instance : ToArguments Unit := ⟨fun _ => []⟩

instance : ToArguments (List Argument) := ⟨id⟩

instance : ToArguments (Array Argument) := ⟨Array.toList⟩

instance (n : Nat) : ToArguments (Vector Argument n) := ⟨Vector.toList⟩

/-- A tuple that ends in `()` passes its components in order. -/
instance {α β : Type} [ToArgument α] [ToArguments β] : ToArguments (α × β) :=
  ⟨fun p => toArgument p.1 :: toArguments p.2⟩

end NativeBridge
