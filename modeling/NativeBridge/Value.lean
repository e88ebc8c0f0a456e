import NativeBridge.Handle

/-!
# Values

What moves between native code and the machine. A *scalar* is an integer of one of four widths
or a text. The machine's own values are scalars, the absence of a value, and references to
things that live in its handle table. A handle addresses a thing of one *kind*: a scalar of some
type, a module, a function or a heap block.
-/

namespace NativeBridge

/-- The types of scalars. -/
inductive ScalarType where
  | byte
  | short
  | int
  | long
  | string
  deriving DecidableEq

/-- The word for a type. -/
def ScalarType.name : ScalarType → String
  | byte => "byte"
  | short => "short"
  | int => "int"
  | long => "long"
  | string => "string"

/-- The widths of integers: 8, 16, 32 and 64 bits. -/
inductive Width where
  | byte
  | short
  | int
  | long
  deriving DecidableEq

namespace Width

/-- The type of the scalars that hold an integer of this width. -/
def type : Width → ScalarType
  | byte => .byte
  | short => .short
  | int => .int
  | long => .long

/-- The word for a width. -/
def name (w : Width) : String := w.type.name

/-- The signed integers of a width. -/
def Word : Width → Type
  | byte => Int8
  | short => Int16
  | int => Int32
  | long => Int64

/-- The low bits of `n`, read as a signed integer of the width. -/
def narrow : (w : Width) → Int64 → w.Word
  | byte, n => n.toInt8
  | short, n => n.toInt16
  | int, n => n.toInt32
  | long, n => n

end Width

/-- Scalars: integers of four widths, and texts. -/
inductive Scalar where
  | byte (v : Int8)
  | short (v : Int16)
  | int (v : Int32)
  | long (v : Int64)
  | string (v : String)
  deriving DecidableEq

namespace Scalar

/-- The type of a scalar. -/
def type : Scalar → ScalarType
  | byte _ => .byte
  | short _ => .short
  | int _ => .int
  | long _ => .long
  | string _ => .string

/-- The integer that a scalar holds, with its sign extended to 64 bits. -/
def toInt64? : Scalar → Option Int64
  | byte v => some v.toInt64
  | short v => some v.toInt64
  | int v => some v.toInt64
  | long v => some v
  | string _ => none

/-- Whether a scalar is an integer. -/
def isNumber (s : Scalar) : Bool := s.toInt64?.isSome

/-- The scalar that holds an integer of a given width. -/
def ofWord : (w : Width) → w.Word → Scalar
  | .byte, v => byte v
  | .short, v => short v
  | .int, v => int v
  | .long, v => long v

/-- Zero, or the empty text. -/
def zero : ScalarType → Scalar
  | .byte => byte 0
  | .short => short 0
  | .int => int 0
  | .long => long 0
  | .string => string ""

@[simp] theorem type_zero (t : ScalarType) : (zero t).type = t := by cases t <;> rfl

end Scalar

/-- Values as the machine passes them to its own functions. -/
inductive Value where
  /-- The absence of a value. -/
  | null
  | scalar (s : Scalar)
  /-- A reference to a module, a function or a heap block. -/
  | ref (h : Handle)
  deriving DecidableEq

namespace Value

/-- The word for the type of a value. -/
def typeName : Value → String
  | null => "null"
  | scalar s => s.type.name
  | ref _ => "reference"

/-- Whether a value is an integer. -/
def isNumber : Value → Bool
  | scalar s => s.isNumber
  | _ => false

/-- The integer that a value holds, with its sign extended to 64 bits. -/
def toInt64? : Value → Option Int64
  | scalar s => s.toInt64?
  | _ => none

end Value

/-- The kinds of things that a handle addresses. -/
inductive Kind where
  | scalar (t : ScalarType)
  | module
  | function
  | block
  deriving DecidableEq

/-- The word for a kind. -/
def Kind.name : Kind → String
  | scalar t => t.name
  | module => "module"
  | function => "function"
  | block => "block"

end NativeBridge
