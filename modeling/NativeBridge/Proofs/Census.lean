import NativeBridge.Proofs.Accounting

/-!
# The census

What a machine holds, kind by kind. Every module is in the table and has a name of its own, every
function belongs to the functions of one module or is its top-level code (`Census`), and blocks
are counted by the heap counters. What remains of all that is live are scalars (`Census.live_eq`).
-/

namespace NativeBridge

open Handle.Table (Addressable Sound)

variable {σ : Type}

namespace Object

/-- One for a scalar. -/
def scalars : Object σ → ℕ
  | .scalar _ => 1
  | _ => 0

/-- One for a module. -/
def modules : Object σ → ℕ
  | .module _ => 1
  | _ => 0

/-- One for a function. -/
def functions : Object σ → ℕ
  | .function _ => 1
  | _ => 0

/-- The number of functions of a module, its top-level code included. -/
def members : Object σ → ℕ
  | .module m => m.functions.size + 1
  | _ => 0

/-- Every object is of exactly one kind. -/
theorem kinds_eq_one (o : Object σ) : o.modules + o.functions + (o.blocks + o.scalars) = 1 := by
  cases o <;> rfl

end Object

/-- All that is live is counted, the modules have one name each, and there are as many functions
as the modules have. -/
structure Census (x : Holdings σ) : Prop where
  counted : x.table.Counted
  modules : x.modules.size = x.table.total Object.modules
  functions : x.table.total Object.functions = x.table.total Object.members

namespace Census

variable {x : Holdings σ}

/-- Moves that add neither modules nor functions keep the census. -/
theorem apply_of_not_registers {m : Move σ} (hx : Census x) (hs : x.table.Sound)
    (hm : m.Allowed x) (hf : (m.apply x).table.Addressable) (hr : ¬ m.Registers) :
    Census (m.apply x) := by
  have hmodules : m.modules x = x.modules := by
    cases m with
    | createModule name => exact absurd trivial hr
    | _ => rfl
  have htotal : ∀ w : Object σ → ℕ, (∀ s, w (.scalar s) = 0) → (∀ b, w (.block b) = 0) →
      (m.apply x).table.total w = x.table.total w :=
    fun w hscalar hblock => Move.total_of_not_registers hs hm hf hr hscalar hblock
  constructor
  · exact Handle.Table.counted_replay hs hf hx.counted
  · rw [htotal _ (fun _ => rfl) fun _ => rfl, ← hx.modules, ← hmodules]
    rfl
  · rw [htotal _ (fun _ => rfl) fun _ => rfl, htotal _ (fun _ => rfl) fun _ => rfl, hx.functions]

/-- Every move keeps the census. -/
theorem apply {m : Move σ} (hs : x.table.Sound) (hm : m.Allowed x)
    (hf : (m.apply x).table.Addressable) (hx : Census x) : Census (m.apply x) := by
  have hmodules := hx.modules
  have hfunctions := hx.functions
  cases m with
  | createModule name =>
    have htotal := Move.total_createModule hs hf
    refine ⟨Handle.Table.counted_replay hs hf hx.counted, ?_, ?_⟩
    · have hsize : (Move.apply x (.createModule name)).modules.size = x.modules.size + 1 :=
        Dict.size_set_of_get?_eq_none hm.2 _
      rw [hsize, htotal, hmodules]
      rfl
    · rw [htotal, htotal, hfunctions]
      rfl
  | addFunction module name argc body =>
    obtain ⟨-, md, hmd, hnew⟩ := hm
    have htotal := Move.total_addFunction hs hmd hf
    refine ⟨Handle.Table.counted_replay hs hf hx.counted, ?_, ?_⟩
    · have hafter := htotal Object.modules
      simp only [Object.modules] at hafter hmodules ⊢
      exact hmodules.trans (Nat.add_right_cancel hafter).symm
    · have hafter := htotal Object.functions
      have hafter' := htotal Object.members
      rw [Object.members, Object.members, Dict.size_set_of_get?_eq_none hnew] at hafter'
      simp only [Object.functions, Object.members] at hafter hafter' hfunctions ⊢
      omega
  | _ => exact hx.apply_of_not_registers hs hm hf id

/-- **The census.** All that is live are the modules, their functions, the blocks and the
scalars. -/
theorem live_eq (hx : Census x) (hb : Balanced x) :
    x.table.live = x.modules.size + x.table.total Object.members + x.heap.liveBlocks.toNat +
      x.table.total Object.scalars := by
  -- one for each object is one for each kind that it may have
  have hones : (fun _ => 1 : Object σ → ℕ) =
      fun o => o.modules + o.functions + (o.blocks + o.scalars) :=
    funext fun o => o.kinds_eq_one.symm
  rw [hx.counted, hones, Handle.Table.total_add, Handle.Table.total_add, Handle.Table.total_add,
    hx.modules, hx.functions, hb.live]
  omega

end Census

theorem census_new (options : Options) (memory : σ) : Census (Vm.new options memory).holdings where
  counted := Handle.Table.counted_empty
  modules := (Handle.Table.total_empty _).symm
  functions := (Handle.Table.total_empty _).trans (Handle.Table.total_empty _).symm

theorem Steps.census {options : Options} {memory : σ} {steps : List (Step σ)} {vm : Vm σ}
    (h : Steps (Vm.new options memory) steps vm) (hf : vm.table.Addressable) :
    Census vm.holdings :=
  h.inv (Vm.sound_new options memory) hf (fun _ _ hs hm hf hx => hx.apply hs hm hf)
    (census_new options memory)

end NativeBridge
