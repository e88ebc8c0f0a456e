import NativeBridge.Proofs.Machine.Run

/-!
# The registry

Names, modules and functions fit together in every state that a machine reaches, and what is
registered once stays so (`registry_append_only`). Every function is the top-level code of one
module or listed by one module, never both. The three ways to look up a function give the same
answer; in particular the module of an open scope is always there.
-/

namespace NativeBridge

open Handle.Table (Addressable)

variable {σ : Type} {vm : Vm σ}

theorem validName_initName : validName Vm.initName = false := by decide

namespace Registered

variable (hx : Registered vm.holdings)

include hx

/-- A module that begins with a function owns it, and so the function has the reserved name. -/
theorem of_beginsWith {k f : Handle} {fn : Function σ} (hfn : vm.object? f = some (.function fn))
    (hk : vm.BeginsWith k f) : fn.module = k ∧ fn.name = Vm.initName := by
  obtain ⟨m, hm, rfl⟩ := hk
  cases (hx.init hm).symm.trans hfn
  exact ⟨rfl, rfl⟩

/-- A module that lists a function owns it, and so the function has the name under which it is
listed, which is not the reserved one. -/
theorem of_lists {k f : Handle} {name : String} {fn : Function σ}
    (hfn : vm.object? f = some (.function fn)) (hk : vm.Lists k name f) :
    fn.module = k ∧ fn.name = name ∧ fn.name ≠ Vm.initName := by
  obtain ⟨m, hm, hlisted⟩ := hk
  obtain ⟨hvalid, fn', hfn', rfl, rfl⟩ := hx.member hm hlisted
  cases hfn'.symm.trans hfn
  refine ⟨rfl, rfl, fun e => ?_⟩
  rw [e, validName_initName] at hvalid
  cases hvalid

/-- A module does not list its top-level code. -/
theorem not_lists_init {k : Handle} {m : Module} (hm : vm.object? k = some (.module m))
    (name : String) : m.functions.get? name ≠ some m.init := fun hlisted =>
  (hx.of_lists (hx.init hm) ⟨m, hm, hlisted⟩).2.2 rfl

/-- A function is the top-level code of one module, or it is listed by one module under its own
name. -/
theorem placed_once {f : Handle} {fn : Function σ} (hfn : vm.object? f = some (.function fn)) :
    ((∃! k, vm.BeginsWith k f) ∧ ∀ k name, ¬ vm.Lists k name f) ∨
      ((∃! k, vm.Lists k fn.name f) ∧ (∀ k name, vm.Lists k name f → name = fn.name) ∧
        ∀ k, ¬ vm.BeginsWith k f) := by
  obtain ⟨m, hm, hinit | hlisted⟩ := hx.owner hfn
  · have hbegins : vm.BeginsWith fn.module f := ⟨m, hm, hinit⟩
    refine .inl ⟨⟨fn.module, hbegins, fun k hk => (hx.of_beginsWith hfn hk).1.symm⟩,
      fun k name hk => ?_⟩
    exact (hx.of_lists hfn hk).2.2 (hx.of_beginsWith hfn hbegins).2
  · have hlists : vm.Lists fn.module fn.name f := ⟨m, hm, hlisted⟩
    refine .inr ⟨⟨fn.module, hlists, fun k hk => (hx.of_lists hfn hk).1.symm⟩,
      fun k name hk => (hx.of_lists hfn hk).2.1.symm, fun k hk => ?_⟩
    exact (hx.of_lists hfn hlists).2.2 (hx.of_beginsWith hfn hk).2

/-- What a module that is there gives for a name is what the names of the module and the function
stand for. -/
theorem getFunctionIn_eq {module : String} {k : Handle} (hk : vm.getModule module = some k)
    (name : String) : vm.getFunctionIn k name = .ok (vm.getFunction module name) := by
  obtain ⟨m, hm, -⟩ := hx.named hk
  have hobject : vm.object? k = some (.module m) := hm
  rw [Vm.getFunction_of_module hk hm]
  simp [Vm.getFunctionIn, hobject]

/-- The module of an open scope is there, under a name. -/
theorem getModule_of_scope (hbound : vm.ScopesBound) {id : ScopeId} {scope : Scope}
    (hid : vm.scopes.get? id = some scope) :
    ∃ module, vm.getModule module = some scope.module := by
  obtain ⟨fn, hfn, hmodule⟩ := hbound (Vm.siteOf_eq_some.mpr ⟨scope, hid, rfl⟩)
  obtain ⟨m, hm, -⟩ := hx.owner hfn
  rw [hmodule] at hm
  exact ⟨m.name, hx.found hm⟩

end Registered

/-- **The registry.** In every state that a machine reaches:

* every name of a module stands for a module that has the name, two names never for the same one,
  and every module is what its name stands for;
* what a module lists under a name is a function of the module that has this name, and the name is
  valid; its top-level code is a function `<init>` of the module, without arguments, which it does
  not list;
* every function is the top-level code of exactly one module, or listed by exactly one module, under
  its own name and no other;
* a function of a module is the same whether it is looked up by two names or in the module that the
  first name stands for; and the module of every open scope is what some name stands for, so that a
  look-up through the scope is such a look-up and never fails for want of the module;
* what one name or two have stood for at an earlier moment they stand for still, and it is the
  module with its name, and the very same function. -/
theorem registry_append_only {options : Options} {memory : σ} {steps : List (Step σ)}
    (h : Steps (Vm.new options memory) steps vm) (hf : vm.table.Addressable) :
    (∀ name k, vm.getModule name = some k →
      ∃ m, vm.object? k = some (.module m) ∧ m.name = name) ∧
    (∀ name name' k, vm.getModule name = some k → vm.getModule name' = some k → name = name') ∧
    (∀ k m, vm.object? k = some (.module m) →
      vm.getModule m.name = some k ∧
      (∀ name f, m.functions.get? name = some f → validName name = true ∧ f ≠ m.init ∧
        ∃ fn, vm.object? f = some (.function fn) ∧ fn.name = name ∧ fn.module = k) ∧
      ∃ fn, vm.object? m.init = some (.function fn) ∧ fn.name = Vm.initName ∧ fn.argc = 0 ∧
        fn.module = k) ∧
    (∀ f fn, vm.object? f = some (.function fn) →
      ((∃! k, vm.BeginsWith k f) ∧ ∀ k name, ¬ vm.Lists k name f) ∨
        ((∃! k, vm.Lists k fn.name f) ∧ (∀ k name, vm.Lists k name f → name = fn.name) ∧
          ∀ k, ¬ vm.BeginsWith k f)) ∧
    (∀ module k, vm.getModule module = some k → ∀ name,
      vm.getFunctionIn k name = .ok (vm.getFunction module name)) ∧
    (∀ id scope, vm.scopes.get? id = some scope →
      ∃ module, vm.getModule module = some scope.module ∧ ∀ name,
        vm.getFunctionIn scope.module name = .ok (vm.getFunction module name) ∧
        ((ScopeOp.getFunction name).perform vm id scope).1 = vm.getFunction module name) ∧
    ∀ past later mid, steps = past ++ later → Steps (Vm.new options memory) past mid →
      (∀ name k, mid.getModule name = some k → vm.getModule name = some k ∧
        ∃ m n, mid.object? k = some (.module m) ∧ vm.object? k = some (.module n) ∧
          m.name = name ∧ n.name = name) ∧
      ∀ module name f, mid.getFunction module name = some f →
        vm.getFunction module name = some f ∧
        ∃ fn, mid.object? f = some (.function fn) ∧ vm.object? f = some (.function fn) := by
  have hx := h.registered hf
  refine ⟨fun name k => hx.named, fun name name' k hk hk' => ?_,
    fun k m hm => ⟨hx.found hm, ?_, ?_⟩, fun f fn => hx.placed_once,
    fun module k => hx.getFunctionIn_eq, fun id scope hid => ?_, ?_⟩
  · -- the module has one name only
    obtain ⟨m, hm, rfl⟩ := hx.named hk
    obtain ⟨m', hm', rfl⟩ := hx.named hk'
    cases hm.symm.trans hm'
    rfl
  · intro name f hlisted
    obtain ⟨hvalid, hmember⟩ := hx.member hm hlisted
    exact ⟨hvalid, fun e => hx.not_lists_init hm name (e ▸ hlisted), hmember⟩
  · exact ⟨_, hx.init hm, rfl, rfl, rfl⟩
  · obtain ⟨module, hmodule⟩ := hx.getModule_of_scope (h.scopesBound hf) hid
    refine ⟨module, hmodule, fun name => ?_⟩
    have hin := hx.getFunctionIn_eq hmodule name
    exact ⟨hin, congrArg (fun found => found.toOption.join) hin⟩
  · rintro past later mid rfl hmid
    have hs := Vm.sound_new options memory
    have hfmid : mid.table.Addressable := by
      obtain ⟨hend, -⟩ := Steps.rest hs hmid h hf
      rw [← Vm.table_holdings, hend] at hf
      exact Holdings.addressable_of_after hf
    have hxmid := hmid.registered hfmid
    refine ⟨fun name k hk => ?_, fun module name f hfn => ?_⟩
    · have hk' := hmid.getModule_lasts hs h hf hk
      obtain ⟨m, hm, hname⟩ := hxmid.named hk
      obtain ⟨n, hn, hname'⟩ := hx.named hk'
      exact ⟨hk', m, n, hm, hn, hname, hname'⟩
    · obtain ⟨k, m, -, hm, hlisted⟩ := Vm.getFunction_eq_some.mp hfn
      obtain ⟨-, fn, hfn', -⟩ := hxmid.member hm hlisted
      obtain ⟨b, hb, rfl⟩ := hmid.object_lasts hs h hf hfn' trivial
      exact ⟨hmid.getFunction_lasts hs h hf hfn, fn, hfn', hb⟩

/-- A script function of the module of the tour. -/
def nameTour : Act Unit :=
  .defineScript (.ofParts 0 1) "rest" 0 fun _ => .done (r := .script) (Except.ok none)

/-- When the module of the tour gets a function, its name still stands for it, and the function is
found in it. -/
theorem registry_append_only_midTour :
    ∃ past, Steps (.new .default ()) past midTour ∧
      Steps (.new .default ()) (past ++ [⟨midTour, nameTour⟩]) (nameTour.perform midTour) ∧
      (nameTour.perform midTour).table.Addressable ∧
      midTour.getModule "tour" = some (.ofParts 0 1) ∧
      (nameTour.perform midTour).getModule "tour" = some (.ofParts 0 1) ∧
      (nameTour.perform midTour).getFunctionIn (.ofParts 0 1) "rest" =
        .ok (some (.ofParts 4 1)) := by
  obtain ⟨past, hpast⟩ := steps_midTour
  have h := hpast.snoc nameTour trivial
  have hf : (nameTour.perform midTour).table.Addressable := by
    unfold Addressable
    decide +kernel
  obtain ⟨-, -, -, -, hin, -, hlater⟩ := registry_append_only h hf
  have hmodule : midTour.getModule "tour" = some (.ofParts 0 1) := by decide +kernel
  have hmodule' := ((hlater _ _ midTour rfl hpast).1 _ _ hmodule).1
  have hfunction : (nameTour.perform midTour).getFunction "tour" "rest" = some (.ofParts 4 1) := by
    decide +kernel
  refine ⟨past, hpast, h, hf, hmodule, hmodule', ?_⟩
  rw [hin _ _ hmodule', hfunction]

end NativeBridge
