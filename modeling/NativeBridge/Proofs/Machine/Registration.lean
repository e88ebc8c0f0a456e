import NativeBridge.Proofs.Machine.Lookup
import NativeBridge.Proofs.Machine.Operation

/-!
# Registrations as moves

The moves of the operations that add modules and functions. The functions of a library are added
one by one. That each of them finds its module, and its name free there, needs a sound table: the
module that was just created is the one that its handle addresses.
-/

namespace NativeBridge

open Handle.Table (Addressable Sound)

variable {σ : Type}

namespace Vm

theorem module?_eq_some {vm : Vm σ} {h : Handle} {m : Module} :
    vm.module? h = some m ↔ vm.table.get? h = some (.module m) := by
  unfold module? object?
  split <;> simp_all

/-! ### Modules -/

/-- The moves of defining a module. -/
def defineModuleMoves (vm : Vm σ) (name : String) : List (Move σ) :=
  match (vm.defineModule name).1 with
  | .ok _ => [.createModule name]
  | .error _ => []

theorem holdings_defineModule (vm : Vm σ) (name : String) :
    (vm.defineModule name).2.holdings = vm.holdings.after (vm.defineModuleMoves name) := by
  unfold defineModuleMoves defineModule
  split
  · rfl
  · split <;> rfl

theorem moves_defineModule (vm : Vm σ) (name : String) :
    Moves vm.holdings (vm.defineModuleMoves name) := by
  unfold defineModuleMoves defineModule
  split
  · next h hok =>
    split at hok
    · cases hok
    · next hname =>
      split at hok
      · cases hok
      · next hnew =>
        exact ⟨⟨by simpa using hname, by simpa [Dict.contains] using hnew⟩, trivial⟩
  · trivial

/-! ### Functions -/

theorem holdings_addFunction (vm : Vm σ) (module : Handle) (name : String) (argc : UInt64)
    (body : Body σ) :
    (vm.addFunction module name argc body).2.holdings =
      Move.apply vm.holdings (.addFunction module name argc body) := by
  have hmod : ∀ vm : Vm σ, vm.table.get? module = vm.object? module := fun _ => rfl
  unfold addFunction module?
  simp only [Move.apply, Move.changes, table_holdings, Handle.Table.replay_cons,
    Handle.Table.apply]
  split
  · next m hm =>
    split at hm
    · next m' ho =>
      cases hm
      simp only [object?] at ho
      simp [ho, holdings, Handle.Table.apply, Move.modules, Move.heap, Move.scopes,
        Move.scopesOpened]
    · cases hm
  · next hm =>
    split at hm
    · cases hm
    · next hne =>
      split
      · next m ho => exact absurd ho (hne m)
      · rfl

/-- The handle of a function that is added to a module addresses it. -/
theorem object?_addFunction {vm : Vm σ} (hs : vm.table.Sound) {module : Handle} {m : Module}
    (hm : vm.object? module = some (.module m)) {name : String} {argc : UInt64} {body : Body σ}
    (hf : (vm.addFunction module name argc body).2.table.Addressable) :
    (vm.addFunction module name argc body).2.object? (vm.addFunction module name argc body).1 =
      some (.function ⟨name, module, argc, body⟩) := by
  have hnew : (vm.addFunction module name argc body).1 =
      Move.newFunction vm.table module name argc body := by
    unfold addFunction
    dsimp only
    split <;> rfl
  rw [← table_holdings, holdings_addFunction] at hf
  obtain ⟨-, -, hget⟩ := Move.get?_addFunction (x := vm.holdings) hs hm hf
  have hne := (Move.get?_module_insert (x := vm.holdings) hs hm hf).2
  rw [object?, ← table_holdings, holdings_addFunction, hnew]
  exact (hget _).trans ((if_neg (Ne.symm hne)).trans (if_pos rfl))

/-- If no slot is free, an added function takes the slot behind those there are. -/
theorem addFunction_of_free_eq_nil {vm : Vm σ} (hfree : vm.table.free = []) (module : Handle)
    (name : String) (argc : UInt64) (body : Body σ) :
    (vm.addFunction module name argc body).1 = .ofParts (UInt32.ofNat vm.table.slots.size) 1 ∧
      (vm.addFunction module name argc body).2.table.slots.size = vm.table.slots.size + 1 := by
  unfold addFunction Handle.Table.insert
  rw [hfree]
  dsimp only
  split
  · exact ⟨rfl, (Handle.Table.size_set _ _ _).trans (Array.size_push _)⟩
  · exact ⟨rfl, Array.size_push _⟩

/-- The moves of defining a script function. -/
def defineScriptMoves (vm : Vm σ) (module : Handle) (name : String) (argc : UInt64)
    (body : ScriptBody σ) : List (Move σ) :=
  match (vm.defineScript module name argc body).1 with
  | .ok _ => [.addFunction module name argc (.script body)]
  | .error _ => []

/-- When a script function is defined. -/
theorem defineScript_eq_ok {vm vm' : Vm σ} {module function : Handle} {name : String}
    {argc : UInt64} {body : ScriptBody σ}
    (hok : vm.defineScript module name argc body = (.ok function, vm')) :
    Move.Allowed vm.holdings (.addFunction module name argc (.script body)) ∧
      vm' = (vm.addFunction module name argc (.script body)).2 := by
  unfold defineScript at hok
  split at hok
  · cases hok
  · next hname =>
    split at hok
    · cases hok
    · next m hm =>
      split at hok
      · cases hok
      · next hnew =>
        cases hok
        exact ⟨⟨by simpa using hname, m, module?_eq_some.mp hm,
          by simpa [Dict.contains] using hnew⟩, rfl⟩

theorem defineScript_eq_error {vm vm' : Vm σ} {module : Handle} {name : String} {argc : UInt64}
    {body : ScriptBody σ} {e : LoadError}
    (herr : vm.defineScript module name argc body = (.error e, vm')) : vm' = vm := by
  unfold defineScript at herr
  split at herr
  · cases herr; rfl
  · split at herr
    · cases herr; rfl
    · split at herr <;> cases herr
      rfl

theorem holdings_defineScript (vm : Vm σ) (module : Handle) (name : String) (argc : UInt64)
    (body : ScriptBody σ) :
    (vm.defineScript module name argc body).2.holdings =
      vm.holdings.after (vm.defineScriptMoves module name argc body) := by
  rcases hdef : vm.defineScript module name argc body with ⟨result, vm'⟩
  cases result with
  | ok f =>
    rw [defineScriptMoves, hdef, (defineScript_eq_ok hdef).2]
    exact holdings_addFunction ..
  | error e =>
    rw [defineScriptMoves, hdef, defineScript_eq_error hdef]
    rfl

theorem moves_defineScript (vm : Vm σ) (module : Handle) (name : String) (argc : UInt64)
    (body : ScriptBody σ) : Moves vm.holdings (vm.defineScriptMoves module name argc body) := by
  rcases hdef : vm.defineScript module name argc body with ⟨result, vm'⟩
  cases result with
  | ok f =>
    rw [defineScriptMoves, hdef]
    exact ⟨(defineScript_eq_ok hdef).1, trivial⟩
  | error e =>
    rw [defineScriptMoves, hdef]
    trivial

/-! ### Libraries -/

/-- The move that adds a function of a library. -/
def added (module : Handle) (f : String × NativeFunction σ) : Move σ :=
  .addFunction module f.1 f.2.argc (.native f.2.body)

theorem holdings_addFunctions (vm : Vm σ) (module : Handle)
    (fs : List (String × NativeFunction σ)) :
    (vm.addFunctions module fs).holdings = vm.holdings.after (fs.map (added module)) := by
  induction fs generalizing vm with
  | nil => rfl
  | cons f fs ih =>
    rw [List.map_cons, Holdings.after_cons, added, ← holdings_addFunction]
    exact ih _

/-- The moves of attaching a library. -/
def attachMoves (vm : Vm σ) (name : String) (library : FunctionTable (NativeFunction σ)) :
    List (Move σ) :=
  match vm.getModule name with
  | none => .createModule name :: library.entries.map (added (vm.createModule name).1)
  | some module =>
    match vm.module? module with
    | none => []
    | some m =>
      match library.names.find? m.functions.contains with
      | some _ => []
      | none => library.entries.map (added module)

theorem holdings_attachLibrary (vm : Vm σ) (name : String)
    (library : FunctionTable (NativeFunction σ)) (rejected : ℕ) :
    (vm.attachLibrary name library rejected).2.holdings =
      vm.holdings.after (vm.attachMoves name library) := by
  cases hget : vm.getModule name with
  | none =>
    simp only [attachLibrary, attachMoves, hget, attach, holdings_record, holdings_addFunctions,
      Holdings.after_cons]
    rfl
  | some module =>
    cases hm : vm.module? module with
    | none => simp [attachLibrary, attachMoves, hget, hm]
    | some m =>
      cases hfind : library.names.find? m.functions.contains with
      | some taken => simp [attachLibrary, attachMoves, hget, hm, hfind]
      | none =>
        simp [attachLibrary, attachMoves, hget, hm, hfind, attach, holdings_addFunctions]

end Vm

theorem moves_added {x : Holdings σ} (hs : x.table.Sound) {module : Handle} {m : Module}
    (hm : x.table.get? module = some (.module m)) {fs : List (String × NativeFunction σ)}
    (hnd : (fs.map Prod.fst).Nodup)
    (hname : ∀ n ∈ fs.map Prod.fst, validName n = true ∧ m.functions.get? n = none)
    (hf : (x.after (fs.map (Vm.added module))).table.Addressable) :
    Moves x (fs.map (Vm.added module)) := by
  induction fs generalizing x m with
  | nil => trivial
  | cons f fs ih =>
    rw [List.map_cons, List.nodup_cons] at hnd
    -- the module is still there for the other functions, and their names are still free
    have hf' : (Move.apply x (Vm.added module f)).table.Addressable :=
      Holdings.addressable_of_after hf
    obtain ⟨-, -, hget⟩ := Move.get?_addFunction hs hm hf'
    have hm' := hget module
    rw [if_pos rfl] at hm'
    have hfirst := hname f.1 (by simp)
    refine ⟨⟨hfirst.1, m, hm, hfirst.2⟩, ?_⟩
    refine ih (Handle.Table.sound_replay hs hf') hm' hnd.2 (fun n hn => ?_) hf
    have hne : n ≠ f.1 := fun e => hnd.1 (e ▸ hn)
    have hrest := hname n (List.mem_cons_of_mem _ hn)
    exact ⟨hrest.1, by simpa [hne] using hrest.2⟩

theorem moves_attachLibrary {vm : Vm σ} (hs : vm.table.Sound) {name : String}
    {library : FunctionTable (NativeFunction σ)} (hname : validName name = true)
    (hnd : library.names.Nodup) (hvalid : ∀ n ∈ library.names, validName n = true)
    (hf : (vm.holdings.after (vm.attachMoves name library)).table.Addressable) :
    Moves vm.holdings (vm.attachMoves name library) := by
  cases hget : vm.getModule name with
  | none =>
    simp only [Vm.attachMoves, hget] at hf ⊢
    have hf' : (Move.apply vm.holdings (.createModule name)).table.Addressable :=
      Holdings.addressable_of_after hf
    obtain ⟨-, -, -, -, hget'⟩ := Move.get?_createModule hs hf'
    have hm := hget' (Move.newModule vm.holdings.table name)
    rw [if_pos rfl] at hm
    refine ⟨⟨hname, hget⟩, moves_added (Handle.Table.sound_replay hs hf') hm hnd ?_ hf⟩
    exact fun n hn => ⟨hvalid n hn, Dict.get?_empty n⟩
  | some module =>
    cases hm : vm.module? module with
    | none => simp [Vm.attachMoves, hget, hm]
    | some m =>
      cases hfind : library.names.find? m.functions.contains with
      | some taken => simp [Vm.attachMoves, hget, hm, hfind]
      | none =>
        simp only [Vm.attachMoves, hget, hm, hfind] at hf ⊢
        refine moves_added hs (Vm.module?_eq_some.mp hm) hnd (fun n hn => ⟨hvalid n hn, ?_⟩) hf
        simpa [Dict.contains] using List.find?_eq_none.mp hfind n hn

end NativeBridge
