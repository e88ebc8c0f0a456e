import NativeBridge.Vm.Values

/-!
# Scopes

A scope owns the scalars that are minted through it. Closing the scope ends the life of those
that are still live. References outlive every scope.
-/

namespace NativeBridge

namespace Vm

variable {σ : Type}

/-- Opens a scope for a function and the module that it belongs to. -/
def openScope (vm : Vm σ) (site : Site) : ScopeId × Vm σ :=
  let id : ScopeId := ⟨vm.scopesOpened⟩
  (id, { vm with
    scopes := vm.scopes.set id ⟨site.module, site.function, []⟩
    scopesOpened := vm.scopesOpened + 1 })

/-- The site of a function. -/
def functionSite (vm : Vm σ) (function : Handle) : Except BridgeError Site :=
  match vm.object? function with
  | some (.function f) => .ok ⟨f.module, function⟩
  | _ => .error (.badHandle (.isNot function .function))

/-- The site of the top-level code of a module. -/
def moduleSite (vm : Vm σ) (module : Handle) : Except BridgeError Site :=
  match vm.object? module with
  | some (.module m) => .ok ⟨module, m.init⟩
  | _ => .error (.badHandle (.isNot module .module))

/-- Enters a scalar into the locals of a scope. -/
def addLocal (vm : Vm σ) (id : ScopeId) (h : Handle) : Vm σ :=
  match vm.scopes.get? id with
  | some scope =>
    { vm with scopes := vm.scopes.set id { scope with locals := scope.locals ++ [h] } }
  | none => vm

/-- A handle to a value. A scalar is stored anew and belongs to the scope; a reference is the
handle that it is, and no value is the null handle. -/
def mint (vm : Vm σ) (id : ScopeId) : Value → Handle × Vm σ
  | .null => (Handle.null, vm)
  | .ref h => (h, vm)
  | .scalar s =>
    let (h, table) := vm.table.insert (.scalar s)
    (h, { vm with table := table }.addLocal id h)

/-- Releases handles in order, and counts those that were scalars still live. -/
def releaseAll (vm : Vm σ) : List Handle → Nat × Vm σ
  | [] => (0, vm)
  | h :: rest =>
    let (released, vm) := vm.release h
    let (n, vm) := vm.releaseAll rest
    (n + released.toNat, vm)

/-- Closes a scope and releases its scalars in the order of minting. -/
def closeScope (vm : Vm σ) (id : ScopeId) : Vm σ :=
  match vm.scopes.get? id with
  | none => vm
  | some scope =>
    let closed := { vm with scopes := vm.scopes.erase id }
    if scope.locals.isEmpty then closed
    else
      let (released, vm) := closed.releaseAll scope.locals
      vm.record (.scalarsReleased scope.function released)

/-- Closes scopes in order. -/
def closeScopes (vm : Vm σ) (ids : List ScopeId) : Vm σ := ids.foldl closeScope vm

end Vm

end NativeBridge
