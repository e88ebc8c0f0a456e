import NativeBridge.Text.Quoted

/-!
# Interrupts

An interrupt is a built-in of the machine, named by a 16-bit id and a three-byte opcode. Texts
name both in hexadecimal.
-/

namespace NativeBridge

/-- The three bytes that select an operation of an interrupt. -/
structure Opcode where
  a : UInt8
  b : UInt8
  c : UInt8
  deriving DecidableEq

namespace Opcode

instance : Inhabited Opcode := ⟨⟨0, 0, 0⟩⟩

/-- The bytes in order. -/
def bytes (o : Opcode) : Vector UInt8 3 := #v[o.a, o.b, o.c]

/-- The opcode of three bytes in order. -/
def ofBytes (v : Vector UInt8 3) : Opcode := ⟨v[0], v[1], v[2]⟩

/-- The bytes as the digits of one number in base 256, the first byte most significant. -/
def packed (o : Opcode) : UInt32 :=
  (o.a.toUInt32 <<< 16) ||| (o.b.toUInt32 <<< 8) ||| o.c.toUInt32

@[simp] theorem ofBytes_bytes (o : Opcode) : ofBytes o.bytes = o := rfl

end Opcode

/-- The text that names an interrupt: the id in four hexadecimal digits, the opcode in six. -/
def interruptLabel (id : UInt16) (opcode : Opcode) : String :=
  s!"interrupt 0x{Text.hexadecimal id.toNat 4}/{Text.hexadecimal opcode.packed.toNat 6}"

end NativeBridge
