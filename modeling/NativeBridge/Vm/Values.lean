import NativeBridge.Vm

/-!
# Values on a machine

How handles become values and values become handles. Numeric accesses are *strict*, when the
integer must have exactly the width asked for, or *permissive*, when an integer of any width is
cut or extended to it.
-/

namespace NativeBridge

namespace Vm

variable {σ : Type}

/-- The scalar that `h` addresses, for an access that wants something of kind `wanted`. -/
def scalar (vm : Vm σ) (h : Handle) (wanted : Kind) : Except BridgeError Scalar :=
  match vm.object? h with
  | some (.scalar s) => .ok s
  | some other => .error (.badHandle (.addresses h other.kind wanted))
  | none => .error (.badHandle (.addressesNothing h wanted))

/-- The integer that `h` addresses, cut or extended to a width. -/
def number (vm : Vm σ) (width : Width) (h : Handle) (strict : Bool) :
    Except BridgeError width.Word :=
  match vm.scalar h (.scalar width.type) with
  | .error e => .error e
  | .ok s =>
    if strict && s.type ≠ width.type then .error (.badHandle (.otherWidth h s.type width))
    else
      match s.toInt64? with
      | some n => .ok (width.narrow n)
      | none => .error (.badHandle (.notNumber h s.type))

/-- The text that `h` addresses. -/
def text (vm : Vm σ) (h : Handle) : Except BridgeError String :=
  match vm.scalar h (.scalar .string) with
  | .error e => .error e
  | .ok (.string s) => .ok s
  | .ok s => .error (.badHandle (.notText h s.type))

/-- Whether `h` addresses something of a kind. -/
def isKind (vm : Vm σ) (h : Handle) (kind : Kind) : Bool :=
  (vm.object? h).any fun o => o.kind = kind

/-- Whether `h` addresses an integer. -/
def isNumber (vm : Vm σ) (h : Handle) : Bool := (vm.object? h).any Object.isNumber

/-- What `h` addresses, as a value; the null handle stands for no value. -/
def value? (vm : Vm σ) (h : Handle) : Option Value :=
  if h.isNull then some .null else (vm.object? h).map (Object.value h)

/-- An argument as a value. -/
def argumentValue (vm : Vm σ) : Argument → Except BridgeError Value
  | .scalar s => .ok (.scalar s)
  | .handle h =>
    match vm.value? h with
    | some v => .ok v
    | none => .error (.badHandle (.staleArgument h))

/-- Arguments as values, in order. The first one that fails decides. -/
def argumentValues (vm : Vm σ) (args : List Argument) : Except BridgeError (List Value) :=
  args.mapM vm.argumentValue

/-- Ends the life of a scalar. Nothing else is released. -/
def release (vm : Vm σ) (h : Handle) : Bool × Vm σ :=
  match vm.object? h with
  | some (.scalar _) => (true, { vm with table := vm.table.remove h })
  | _ => (false, vm)

end Vm

end NativeBridge
