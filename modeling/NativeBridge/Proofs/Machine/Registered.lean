import NativeBridge.Proofs.Machine.Object
import NativeBridge.Proofs.Machine.Scope
import NativeBridge.Proofs.Machine.Weight

/-!
# Registered modules and functions

The modules by name, the functions of each module and the table fit together (`Registered`): what
is looked up by a name is there and has that name, and every function belongs to the module that
owns it. Every move keeps this (`Registered.apply`).

Modules and functions are never removed (`Steps.object_lasts`), so that names never lose what they
stand for (`Steps.getModule_lasts`, `Steps.getFunction_lasts`), and every open scope is bound to a
function that is there (`Steps.scopesBound`).
-/

namespace NativeBridge

open Handle.Table (Addressable Sound)

variable {σ : Type} {x : Holdings σ}

/-! ### What lasts -/

/-- A module or a function. -/
def Object.Lasting : Object σ → Prop
  | .module _ => True
  | .function _ => True
  | _ => False

/-- What has become of something that lasts is something that lasts. -/
theorem Object.Becomes.lasting {a b : Object σ} (hab : a.Becomes b) (ha : a.Lasting) :
    b.Lasting := by
  cases a with
  | module m => obtain ⟨n, rfl, -⟩ := hab; trivial
  | function f => obtain rfl := hab; trivial
  | _ => exact ha.elim

namespace Move

/-- A move that adds neither modules nor functions leaves those that there are as they are. -/
theorem get?_iff_of_not_registers {m : Move σ} (hs : x.table.Sound) (hm : m.Allowed x)
    (hf : (m.apply x).table.Addressable) (hr : ¬ m.Registers) {o : Object σ} (ho : o.Lasting)
    (h : Handle) : (m.apply x).table.get? h = some o ↔ x.table.get? h = some o := by
  -- such a move changes what one handle addresses, and that is no module or function
  have hone : ∀ {k : Handle} {a : Option (Object σ)},
      (∀ k', (m.apply x).table.get? k' = if k' = k then a else x.table.get? k') →
      a ≠ some o → x.table.get? k ≠ some o →
      ((m.apply x).table.get? h = some o ↔ x.table.get? h = some o) := by
    intro k a hget hafter hbefore
    rw [hget]
    by_cases hk : h = k
    · rw [if_pos hk, hk]
      exact iff_of_false hafter hbefore
    · rw [if_neg hk]
  have hnew : ∀ {k : Handle}, ¬ x.table.Issued k → x.table.get? k ≠ some o :=
    fun hk hg => hk (Handle.Table.issued_of_get? hs hg)
  have hscalar : ∀ {k : Handle} {s : Scalar}, x.table.get? k = some (.scalar s) →
      x.table.get? k ≠ some o := by
    intro k s hk he
    cases hk.symm.trans he
    exact ho
  have hblock : ∀ {k : Handle} {b : Heap.Block}, x.table.get? k = some (.block b) →
      x.table.get? k ≠ some o := by
    intro k b hk he
    cases hk.symm.trans he
    exact ho
  cases m with
  | mint id s =>
    refine hone (get?_mint hs hf) ?_ (hnew (Handle.Table.not_issued_insert hs hf))
    rintro ⟨⟩
    exact ho
  | alloc size =>
    refine hone (get?_alloc hs hf) ?_ (hnew (Handle.Table.not_issued_insert hs hf))
    rintro ⟨⟩
    exact ho
  | release k =>
    obtain ⟨s, hk⟩ := hm
    exact hone (get?_release hs k) nofun (hscalar hk)
  | free k =>
    obtain ⟨b, hk⟩ := hm
    exact hone (get?_free hs k) nofun (hblock hk)
  | resize k size =>
    obtain ⟨-, b, hk, -⟩ := hm
    refine hone (get?_resize hk size) ?_ (hblock hk)
    rintro ⟨⟩
    exact ho
  | write k offset value =>
    obtain ⟨-, b, c, hk, -⟩ := hm
    refine hone (get?_write hk offset value) ?_ (hblock hk)
    rintro ⟨⟩
    exact ho
  | protect k offset p =>
    obtain ⟨b, c, hk, -⟩ := hm
    refine hone (get?_protect hk offset p) ?_ (hblock hk)
    rintro ⟨⟩
    exact ho
  | createModule name => exact absurd trivial hr
  | addFunction module name argc body => exact absurd trivial hr
  | openScope site => exact Iff.rfl
  | closeScope id => exact Iff.rfl

/-- No move removes a module or a function. -/
theorem object_lasts {m : Move σ} (hs : x.table.Sound) (hm : m.Allowed x)
    (hf : (m.apply x).table.Addressable) {h : Handle} {a : Object σ} (hg : x.table.get? h = some a)
    (ha : a.Lasting) : ∃ b, (m.apply x).table.get? h = some b ∧ a.Becomes b := by
  have hissued := Handle.Table.issued_of_get? hs hg
  by_cases hr : m.Registers
  · rcases object_apply hs hm hf hg with hnone | ⟨b, hb, hab, -⟩
    · -- additions to the registry remove nothing at all
      cases m with
      | createModule name =>
        obtain ⟨hnew, hinit, -, -, hget⟩ := get?_createModule hs hf
        rw [hget, if_neg (Handle.Table.ne_of_issued hissued hnew),
          if_neg (Handle.Table.ne_of_issued hissued hinit), hg] at hnone
        cases hnone
      | addFunction module name argc body =>
        obtain ⟨-, md, hmd, -⟩ := hm
        obtain ⟨hnew, -, hget⟩ := get?_addFunction hs hmd hf
        rw [hget, if_neg (Handle.Table.ne_of_issued hissued hnew)] at hnone
        split at hnone
        · cases hnone
        · rw [hg] at hnone
          cases hnone
      | _ => exact hr.elim
    · exact ⟨b, hb, hab⟩
  · exact ⟨a, (get?_iff_of_not_registers hs hm hf hr ha h).mpr hg, .refl a⟩

/-- A name keeps its module. -/
theorem modules_lasts {m : Move σ} (hm : m.Allowed x) {name : String} {h : Handle}
    (hg : x.modules.get? name = some h) : (m.apply x).modules.get? name = some h := by
  cases m with
  | createModule new =>
    have hne : name ≠ new := fun e => by rw [e, hm.2] at hg; cases hg
    exact (Dict.get?_set _ _ _ _).trans ((if_neg hne).trans hg)
  | _ => exact hg

end Move

namespace Moves

variable {ms : List (Move σ)}

theorem object_lasts (hm : Moves x ms) (hs : x.table.Sound)
    (hf : (x.after ms).table.Addressable) {h : Handle} {a : Object σ}
    (hg : x.table.get? h = some a) (ha : a.Lasting) :
    ∃ b, (x.after ms).table.get? h = some b ∧ a.Becomes b := by
  induction ms generalizing x a with
  | nil => exact ⟨a, hg, .refl a⟩
  | cons m ms ih =>
    have hf' := Holdings.addressable_of_after (x := m.apply x) hf
    obtain ⟨b, hb, hab⟩ := Move.object_lasts hs hm.1 hf' hg ha
    obtain ⟨c, hc, hbc⟩ := ih hm.2 (Handle.Table.sound_replay hs hf') hf hb (hab.lasting ha)
    exact ⟨c, hc, hab.trans hbc⟩

theorem modules_lasts (hm : Moves x ms) {name : String} {h : Handle}
    (hg : x.modules.get? name = some h) : (x.after ms).modules.get? name = some h := by
  induction ms generalizing x with
  | nil => exact hg
  | cons m ms ih => exact ih hm.2 (Move.modules_lasts hm.1 hg)

end Moves

/-! ### The invariant -/

/-- The modules by name, the functions of the modules and the table fit together. -/
structure Registered (x : Holdings σ) : Prop where
  /-- A name stands for a module that has the name. -/
  named : ∀ {name h}, x.modules.get? name = some h →
    ∃ m, x.table.get? h = some (.module m) ∧ m.name = name
  /-- A module is what its name stands for. -/
  found : ∀ {h m}, x.table.get? h = some (.module m) → x.modules.get? m.name = some h
  /-- The top-level code of a module belongs to it. -/
  init : ∀ {h m}, x.table.get? h = some (.module m) →
    x.table.get? m.init = some (.function (initFunction h))
  /-- What a module lists under a name is a function of the module that has the name. -/
  member : ∀ {h m name f}, x.table.get? h = some (.module m) → m.functions.get? name = some f →
    validName name = true ∧
      ∃ fn, x.table.get? f = some (.function fn) ∧ fn.name = name ∧ fn.module = h
  /-- A function is the top-level code of its module, or it is listed there under its name. -/
  owner : ∀ {f fn}, x.table.get? f = some (.function fn) →
    ∃ m, x.table.get? fn.module = some (.module m) ∧
      (m.init = f ∨ m.functions.get? fn.name = some f)

namespace Registered

theorem apply_of_not_registers {m : Move σ} (hx : Registered x) (hs : x.table.Sound)
    (hm : m.Allowed x) (hf : (m.apply x).table.Addressable) (hr : ¬ m.Registers) :
    Registered (m.apply x) := by
  have hmodules : (m.apply x).modules = x.modules := by
    cases m with
    | createModule name => exact absurd trivial hr
    | _ => rfl
  have hmodule : ∀ {h md}, (m.apply x).table.get? h = some (.module md) ↔
      x.table.get? h = some (.module md) :=
    fun {h md} => Move.get?_iff_of_not_registers (o := .module md) hs hm hf hr trivial h
  have hfunction : ∀ {h fn}, (m.apply x).table.get? h = some (.function fn) ↔
      x.table.get? h = some (.function fn) :=
    fun {h fn} => Move.get?_iff_of_not_registers (o := .function fn) hs hm hf hr trivial h
  constructor
  · intro name h hg
    rw [hmodules] at hg
    obtain ⟨md, hmd, hname⟩ := hx.named hg
    exact ⟨md, hmodule.mpr hmd, hname⟩
  · intro h md hmd
    rw [hmodules]
    exact hx.found (hmodule.mp hmd)
  · intro h md hmd
    exact hfunction.mpr (hx.init (hmodule.mp hmd))
  · intro h md name f hmd hg
    obtain ⟨hvalid, fn, hfn, hname, hown⟩ := hx.member (hmodule.mp hmd) hg
    exact ⟨hvalid, fn, hfunction.mpr hfn, hname, hown⟩
  · intro f fn hfn
    obtain ⟨md, hmd, hlisted⟩ := hx.owner (hfunction.mp hfn)
    exact ⟨md, hmodule.mpr hmd, hlisted⟩

theorem apply_createModule (hx : Registered x) (hs : x.table.Sound) {name : String}
    (hnew : x.modules.get? name = none)
    (hf : (Move.apply x (.createModule name)).table.Addressable) :
    Registered (Move.apply x (.createModule name)) := by
  obtain ⟨hmodule, hinit, hne, -, hget⟩ := Move.get?_createModule hs hf
  have hmodules : ∀ n, (Move.apply x (.createModule name)).modules.get? n =
      if n = name then some (Move.newModule x.table name) else x.modules.get? n :=
    fun n => Dict.get?_set _ _ _ _
  -- what there was is as it was, and there are two new objects
  have hold : ∀ {k o}, x.table.get? k = some o →
      (Move.apply x (.createModule name)).table.get? k = some o := by
    intro k o hk
    have hissued := Handle.Table.issued_of_get? hs hk
    rw [hget, if_neg (Handle.Table.ne_of_issued hissued hmodule),
      if_neg (Handle.Table.ne_of_issued hissued hinit), hk]
  have hself : (Move.apply x (.createModule name)).table.get? (Move.newModule x.table name) =
      some (.module ⟨name, .empty, Move.newInit x.table name⟩) := (hget _).trans (if_pos rfl)
  have hcases : ∀ {k md}, (Move.apply x (.createModule name)).table.get? k = some (.module md) →
      (k = Move.newModule x.table name ∧ md = ⟨name, .empty, Move.newInit x.table name⟩) ∨
        x.table.get? k = some (.module md) := by
    intro k md hk
    rw [hget] at hk
    split at hk
    · next he => cases hk; exact .inl ⟨he, rfl⟩
    · split at hk
      · cases hk
      · exact .inr hk
  constructor
  · intro n h hg
    rw [hmodules] at hg
    split at hg
    · next he => cases hg; exact ⟨_, hself, he.symm⟩
    · obtain ⟨md, hmd, hname⟩ := hx.named hg
      exact ⟨md, hold hmd, hname⟩
  · intro h md hmd
    rw [hmodules]
    rcases hcases hmd with ⟨rfl, rfl⟩ | hmd
    · exact if_pos rfl
    · have hfound := hx.found hmd
      have hother : md.name ≠ name := fun e => by rw [e, hnew] at hfound; cases hfound
      rw [if_neg hother, hfound]
  · intro h md hmd
    rcases hcases hmd with ⟨rfl, rfl⟩ | hmd
    · exact (hget _).trans ((if_neg hne).trans (if_pos rfl))
    · exact hold (hx.init hmd)
  · intro h md n f hmd hg
    rcases hcases hmd with ⟨rfl, rfl⟩ | hmd
    · cases hg
    · obtain ⟨hvalid, fn, hfn, hname, hown⟩ := hx.member hmd hg
      exact ⟨hvalid, fn, hold hfn, hname, hown⟩
  · intro f fn hfn
    rw [hget] at hfn
    split at hfn
    · cases hfn
    · split at hfn
      · next he => cases hfn; exact ⟨_, hself, .inl he.symm⟩
      · obtain ⟨md, hmd, hlisted⟩ := hx.owner hfn
        exact ⟨md, hold hmd, hlisted⟩

theorem apply_addFunction (hx : Registered x) (hs : x.table.Sound) {module : Handle} {md : Module}
    {name : String} {argc : UInt64} {body : Body σ} (hvalid : validName name = true)
    (hmd : x.table.get? module = some (.module md)) (hnew : md.functions.get? name = none)
    (hf : (Move.apply x (.addFunction module name argc body)).table.Addressable) :
    Registered (Move.apply x (.addFunction module name argc body)) := by
  obtain ⟨hfresh, -, hget⟩ := Move.get?_addFunction hs hmd hf
  have hne := (Move.get?_module_insert hs hmd hf).2
  -- what there was is as it was, except for the module, which lists one function more
  have hold : ∀ {k o}, x.table.get? k = some o → k ≠ module →
      (Move.apply x (.addFunction module name argc body)).table.get? k = some o := by
    intro k o hk hkm
    rw [hget, if_neg hkm,
      if_neg (Handle.Table.ne_of_issued (Handle.Table.issued_of_get? hs hk) hfresh), hk]
  have hmodule : ∀ {k m}, x.table.get? k = some (.module m) →
      ∃ n : Module, (Move.apply x (.addFunction module name argc body)).table.get? k =
        some (.module n) ∧ n.name = m.name ∧ n.init = m.init ∧
        ∀ nm f, m.functions.get? nm = some f → n.functions.get? nm = some f := by
    intro k m hk
    by_cases hkm : k = module
    · rw [hkm, hmd] at hk
      cases hk
      refine ⟨_, (hget k).trans (if_pos hkm), rfl, rfl, fun nm f hnm => ?_⟩
      have hother : nm ≠ name := fun e => by rw [e, hnew] at hnm; cases hnm
      exact (Dict.get?_set _ _ _ _).trans ((if_neg hother).trans hnm)
    · exact ⟨m, hold hk hkm, rfl, rfl, fun _ _ hnm => hnm⟩
  have hfunction : ∀ {k fn}, x.table.get? k = some (.function fn) →
      (Move.apply x (.addFunction module name argc body)).table.get? k = some (.function fn) := by
    intro k fn hk
    exact hold hk fun e => by rw [e, hmd] at hk; cases hk
  have hself : (Move.apply x (.addFunction module name argc body)).table.get?
      (Move.newFunction x.table module name argc body) =
        some (.function ⟨name, module, argc, body⟩) := by
    rw [hget, if_neg (Ne.symm hne), if_pos rfl]
  have hcases : ∀ {k m}, (Move.apply x (.addFunction module name argc body)).table.get? k =
      some (.module m) → ∃ old, x.table.get? k = some (.module old) ∧ m.name = old.name ∧
        m.init = old.init ∧ ∀ nm f, m.functions.get? nm = some f →
          (nm = name ∧ f = Move.newFunction x.table module name argc body ∧ k = module) ∨
            old.functions.get? nm = some f := by
    intro k m hk
    rw [hget] at hk
    split at hk
    · next he =>
      cases hk
      refine ⟨md, he ▸ hmd, rfl, rfl, fun nm f hnm => ?_⟩
      rw [Dict.get?_set] at hnm
      split at hnm
      · next hn => cases hnm; exact .inl ⟨hn, rfl, he⟩
      · exact .inr hnm
    · split at hk
      · cases hk
      · exact ⟨m, hk, rfl, rfl, fun _ _ hnm => .inr hnm⟩
  constructor
  · intro n h hg
    obtain ⟨m, hm, hname⟩ := hx.named hg
    obtain ⟨m', hm', hname', -⟩ := hmodule hm
    exact ⟨m', hm', hname'.trans hname⟩
  · intro h m hm
    obtain ⟨old, hold', hname, -⟩ := hcases hm
    rw [hname]
    exact hx.found hold'
  · intro h m hm
    obtain ⟨old, hold', -, hinit, -⟩ := hcases hm
    rw [hinit]
    exact hfunction (hx.init hold')
  · intro h m nm f hm hg
    obtain ⟨old, hold', -, -, hlist⟩ := hcases hm
    rcases hlist nm f hg with ⟨rfl, rfl, rfl⟩ | hlisted
    · exact ⟨hvalid, _, hself, rfl, rfl⟩
    · obtain ⟨hvalid', fn, hfn, hname, hown⟩ := hx.member hold' hlisted
      exact ⟨hvalid', fn, hfunction hfn, hname, hown⟩
  · intro f fn hfn
    rw [hget] at hfn
    split at hfn
    · cases hfn
    · split at hfn
      · next he =>
        cases hfn
        refine ⟨_, (hget module).trans (if_pos rfl), .inr ?_⟩
        exact (Dict.get?_set _ _ _ _).trans ((if_pos rfl).trans (congrArg some he.symm))
      · obtain ⟨m, hm, hlisted⟩ := hx.owner hfn
        obtain ⟨m', hm', -, hinit, hlist⟩ := hmodule hm
        exact ⟨m', hm', hlisted.imp hinit.trans (hlist _ _)⟩

/-- Every move keeps the registry. -/
theorem apply {m : Move σ} (hs : x.table.Sound) (hm : m.Allowed x)
    (hf : (m.apply x).table.Addressable) (hx : Registered x) : Registered (m.apply x) := by
  cases m with
  | createModule name => exact hx.apply_createModule hs hm.2 hf
  | addFunction module name argc body =>
    obtain ⟨hvalid, md, hmd, hnew⟩ := hm
    exact hx.apply_addFunction hs hvalid hmd hnew hf
  | _ => exact hx.apply_of_not_registers hs hm hf id

end Registered

theorem registered_new (options : Options) (memory : σ) :
    Registered (Vm.new options memory).holdings where
  named hg := nomatch hg
  found hm := by cases (Handle.Table.get?_empty _).symm.trans hm
  init hm := by cases (Handle.Table.get?_empty _).symm.trans hm
  member hm := by cases (Handle.Table.get?_empty _).symm.trans hm
  owner hf := by cases (Handle.Table.get?_empty _).symm.trans hf

/-! ### Histories -/

namespace Vm

/-- The module that `k` addresses has `f` among its functions, under `name`. -/
def Lists (vm : Vm σ) (k : Handle) (name : String) (f : Handle) : Prop :=
  ∃ m, vm.object? k = some (.module m) ∧ m.functions.get? name = some f

/-- The module that `k` addresses has `f` as its top-level code. -/
def BeginsWith (vm : Vm σ) (k f : Handle) : Prop :=
  ∃ m, vm.object? k = some (.module m) ∧ m.init = f

/-- Every open scope is bound to a function and to the module that the function belongs to. -/
def ScopesBound (vm : Vm σ) : Prop :=
  ∀ {id site}, vm.siteOf id = some site →
    ∃ fn, vm.object? site.function = some (.function fn) ∧ fn.module = site.module

theorem functionSite_eq_ok {vm : Vm σ} {f : Handle} {site : Site}
    (hs : vm.functionSite f = .ok site) :
    ∃ fn, vm.object? f = some (.function fn) ∧ site = ⟨fn.module, f⟩ := by
  unfold functionSite at hs
  split at hs
  · next fn hfn => cases hs; exact ⟨fn, hfn, rfl⟩
  · cases hs

theorem moduleSite_eq_ok {vm : Vm σ} {module : Handle} {site : Site}
    (hs : vm.moduleSite module = .ok site) :
    ∃ m, vm.object? module = some (.module m) ∧ site = ⟨module, m.init⟩ := by
  unfold moduleSite at hs
  split at hs
  · next m hm => cases hs; exact ⟨m, hm, rfl⟩
  · cases hs

theorem getFunction_of_module {vm : Vm σ} {module : String} {k : Handle} {m : Module}
    (hk : vm.getModule module = some k) (hm : vm.object? k = some (.module m)) (name : String) :
    vm.getFunction module name = m.functions.get? name := by
  have hmodule : vm.module? k = some m := module?_eq_some.mpr hm
  simp [getFunction, hk, hmodule]

theorem getFunction_eq_some {vm : Vm σ} {module name : String} {f : Handle} :
    vm.getFunction module name = some f ↔ ∃ h m, vm.getModule module = some h ∧
      vm.object? h = some (.module m) ∧ m.functions.get? name = some f := by
  simp only [getFunction, Option.bind_eq_some_iff, module?_eq_some, object?]
  constructor
  · rintro ⟨h, hh, m, hm, hf⟩
    exact ⟨h, m, hh, hm, hf⟩
  · rintro ⟨h, m, hh, hm, hf⟩
    exact ⟨h, hh, m, hm, hf⟩

end Vm

namespace Steps

variable {options : Options} {memory : σ} {vm₀ mid vm : Vm σ} {steps past later : List (Step σ)}

theorem registered (h : Steps (Vm.new options memory) steps vm) (hf : vm.table.Addressable) :
    Registered vm.holdings :=
  h.inv (Vm.sound_new options memory) hf (fun _ _ hs hm hf hx => hx.apply hs hm hf)
    (registered_new options memory)

/-- The top-level code of a module is there. -/
theorem object?_init (h : Steps (Vm.new options memory) steps vm) (hf : vm.table.Addressable)
    {k : Handle} {m : Module} (hm : vm.module? k = some m) :
    vm.object? m.init = some (.function (initFunction k)) :=
  (h.registered hf).init (Vm.module?_eq_some.mp hm)

/-- **Modules and functions last.** At every later moment there is what has become of them. -/
theorem object_lasts (hs : vm₀.table.Sound) (hmid : Steps vm₀ past mid)
    (h : Steps vm₀ (past ++ later) vm) (hf : vm.table.Addressable) {k : Handle} {a : Object σ}
    (ha : mid.object? k = some a) (hl : a.Lasting) : ∃ b, vm.object? k = some b ∧ a.Becomes b := by
  obtain ⟨hend, hmoves, hsmid⟩ := rest hs hmid h hf
  obtain ⟨b, hb, hab⟩ := hmoves.object_lasts hsmid (hend ▸ hf) ha hl
  exact ⟨b, (congrArg (fun y => y.table.get? k) hend).trans hb, hab⟩

/-- What a name of a module stands for once, it stands for at every later moment. -/
theorem getModule_lasts (hs : vm₀.table.Sound) (hmid : Steps vm₀ past mid)
    (h : Steps vm₀ (past ++ later) vm) (hf : vm.table.Addressable) {name : String} {k : Handle}
    (hk : mid.getModule name = some k) : vm.getModule name = some k := by
  obtain ⟨hend, hmoves, -⟩ := rest hs hmid h hf
  exact (congrArg (fun y => y.modules.get? name) hend).trans (hmoves.modules_lasts hk)

/-- The names of a module and a function that stand for a function once stand for it at every later
moment. -/
theorem getFunction_lasts (hs : vm₀.table.Sound) (hmid : Steps vm₀ past mid)
    (h : Steps vm₀ (past ++ later) vm) (hf : vm.table.Addressable) {module name : String}
    {f : Handle} (hfn : mid.getFunction module name = some f) :
    vm.getFunction module name = some f := by
  obtain ⟨k, m, hk, hm, hlisted⟩ := Vm.getFunction_eq_some.mp hfn
  obtain ⟨-, hn, n, rfl, -, -, hlist⟩ := object_lasts hs hmid h hf hm trivial
  exact Vm.getFunction_eq_some.mpr
    ⟨k, n, getModule_lasts hs hmid h hf hk, hn, hlist name f hlisted⟩

/-- **Scopes are bound.** At every moment of a history the function and the module of an open scope
are there. -/
theorem scopesBound (h : Steps (Vm.new options memory) steps vm) (hf : vm.table.Addressable) :
    vm.ScopesBound := by
  have hs := Vm.sound_new options memory
  induction h with
  | refl => exact fun {_ site} hsite => nomatch (hsite : none = some site)
  | snoc act hpast ha ih =>
    next past before =>
    have hf' := Act.addressable ha hf
    -- a scope that was open before is bound still
    have hkept : ∀ {id site}, before.siteOf id = some site →
        ∃ fn, (act.perform before).object? site.function = some (.function fn) ∧
          fn.module = site.module := by
      intro id site hsite
      obtain ⟨fn, hfn, hmodule⟩ := ih hf' hsite
      obtain ⟨-, hfn', rfl⟩ := object_lasts hs hpast (hpast.snoc act ha) hf hfn trivial
      exact ⟨fn, hfn', hmodule⟩
    intro id site hsite
    cases act with
    | openScope opened =>
      rw [Act.siteOf_openScope] at hsite
      split at hsite
      · cases hsite
        rcases ha with ⟨f, hf₀⟩ | ⟨module, hm₀⟩
        · obtain ⟨fn, hfn, rfl⟩ := Vm.functionSite_eq_ok hf₀
          exact ⟨fn, hfn, rfl⟩
        · obtain ⟨m, hm, rfl⟩ := Vm.moduleSite_eq_ok hm₀
          exact ⟨_, (hpast.registered hf').init hm, rfl⟩
      · exact hkept hsite
    | closeScope k =>
      rw [Act.siteOf_closeScope] at hsite
      split at hsite
      · cases hsite
      · exact hkept hsite
    | _ => exact hkept ((Act.sameSites_perform ha trivial id).symm.trans hsite)

end Steps

end NativeBridge
