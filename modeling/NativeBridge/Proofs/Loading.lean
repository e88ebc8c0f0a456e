import NativeBridge.Proofs.Machine.Call

/-!
# Loading libraries

The functions of a library are attached all together or not at all (`load_library_atomic`),
whatever its loader does while it runs. What decides is the machine that the loader leaves. If the
module has one of the names by then, the first such name is reported and this machine stays as it
is; otherwise the module, which is created if there is none, gets one new function for each entry of
the library (`Vm.Receives`).
-/

namespace NativeBridge

open Handle.Table (Addressable Sound)

variable {σ : Type} {x y : Holdings σ} {vm vm' : Vm σ}

/-! ### Functions that are added to a module -/

/-- What becomes of the module `m` that `k` addresses, and of all others, when the functions `fs`
are added to it. -/
structure Gained (x y : Holdings σ) (k : Handle) (m m' : Module)
    (fs : List (String × NativeFunction σ)) : Prop where
  module : y.table.get? k = some (.module m')
  name : m'.name = m.name
  init : m'.init = m.init
  /-- Under other names the module lists what it did. -/
  kept : ∀ n, fs.lookup n = none → m'.functions.get? n = m.functions.get? n
  /-- Under the name of each of the functions it lists a new one. -/
  added : ∀ n f, fs.lookup n = some f → ∃ h, m'.functions.get? n = some h ∧
    ¬ x.table.Issued h ∧ y.table.get? h = some (.function ⟨n, k, f.argc, .native f.body⟩)
  /-- All that there was but the module is as it was. -/
  others : ∀ h o, x.table.get? h = some o → h ≠ k → y.table.get? h = some o
  /-- There is nothing new but the functions. -/
  origin : ∀ h o, y.table.get? h = some o → h = k ∨ x.table.get? h = some o ∨
    ∃ n, fs.lookup n ≠ none ∧ m'.functions.get? n = some h

theorem Gained.nil {k : Handle} {m : Module} (hk : x.table.get? k = some (.module m)) :
    Gained x x k m m [] where
  module := hk
  name := rfl
  init := rfl
  kept _ _ := rfl
  added _ _ hn := nomatch hn
  others _ _ hh _ := hh
  origin _ _ hh := .inr (.inl hh)

/-- One function is added before the others, under a name that is none of theirs. -/
theorem Gained.cons (hs : x.table.Sound) {k : Handle} {m m' : Module}
    (hk : x.table.get? k = some (.module m)) {f : String × NativeFunction σ}
    {fs : List (String × NativeFunction σ)} (hnew : fs.lookup f.1 = none)
    (hf : (Move.apply x (Vm.added k f)).table.Addressable)
    (h : Gained (Move.apply x (Vm.added k f)) y k
      { m with
        functions := m.functions.set f.1
          (Move.newFunction x.table k f.1 f.2.argc (.native f.2.body)) } m' fs) :
    Gained x y k m m' (f :: fs) := by
  obtain ⟨hfresh, hissued, hget⟩ := Move.get?_addFunction hs hk hf
  have hne := (Move.get?_module_insert hs hk hf).2
  obtain ⟨name, fn⟩ := f
  have hlookup : ∀ n, ((name, fn) :: fs).lookup n = if n = name then some fn else fs.lookup n := by
    intro n
    by_cases hn : n = name <;> simp [List.lookup_cons, hn, beq_eq_false_iff_ne.mpr]
  refine ⟨h.module, h.name, h.init, fun n hn => ?_, fun n g hn => ?_, fun j o hj hjk => ?_,
    fun j o hj => ?_⟩
  · rw [hlookup] at hn
    split at hn
    · cases hn
    · next hnn =>
      exact (h.kept n hn).trans ((Dict.get?_set _ _ _ _).trans (if_neg hnn))
  · rw [hlookup] at hn
    split at hn
    · next hnn =>
      -- the functions that come after this one leave it alone
      cases hn
      subst hnn
      refine ⟨_, (h.kept n hnew).trans ((Dict.get?_set _ _ _ _).trans (if_pos rfl)), hfresh, ?_⟩
      exact h.others _ _ ((hget _).trans ((if_neg (Ne.symm hne)).trans (if_pos rfl))) (Ne.symm hne)
    · obtain ⟨j, hlisted, hj, hobject⟩ := h.added n g hn
      exact ⟨j, hlisted, fun hold => hj ((hissued j).mpr (.inr hold)), hobject⟩
  · have hjf := Handle.Table.ne_of_issued (Handle.Table.issued_of_get? hs hj) hfresh
    exact h.others j o ((hget j).trans ((if_neg hjk).trans ((if_neg hjf).trans hj))) hjk
  · rcases h.origin j o hj with rfl | hj | ⟨n, hn, hlisted⟩
    · exact .inl rfl
    · replace hj := (hget j).symm.trans hj
      split at hj
      · next hjk => exact .inl hjk
      · split at hj
        · next hjf =>
          refine .inr (.inr ⟨name, by simp [hlookup], ?_⟩)
          rw [hjf]
          exact (h.kept name hnew).trans ((Dict.get?_set _ _ _ _).trans (if_pos rfl))
        · exact .inr (.inl hj)
    · refine .inr (.inr ⟨n, ?_, hlisted⟩)
      rw [hlookup]
      split
      · exact nofun
      · exact hn

/-- **Additions.** Functions of different names are added one by one. -/
theorem gained_added (hs : x.table.Sound) {k : Handle} {m : Module}
    (hk : x.table.get? k = some (.module m)) {fs : List (String × NativeFunction σ)}
    (hnd : (fs.map Prod.fst).Nodup)
    (hf : (x.after (fs.map (Vm.added k))).table.Addressable) :
    ∃ m', Gained x (x.after (fs.map (Vm.added k))) k m m' fs := by
  induction fs generalizing x m with
  | nil => exact ⟨m, .nil hk⟩
  | cons f fs ih =>
    rw [List.map_cons, List.nodup_cons] at hnd
    have hf' : (Move.apply x (Vm.added k f)).table.Addressable := Holdings.addressable_of_after hf
    obtain ⟨-, -, hget⟩ := Move.get?_addFunction hs hk hf'
    have hk' := (hget k).trans (if_pos rfl)
    have hnew : fs.lookup f.1 = none := Dict.lookup_eq_none_iff.mpr hnd.1
    obtain ⟨m', hm'⟩ := ih (Handle.Table.sound_replay hs hf') hk' hnd.2 hf
    exact ⟨m', .cons hs hk hnew hf' hm'⟩

/-! ### Libraries -/

namespace Vm

/-- The machine `vm'` is `vm`, with the functions of a library in the module that `k` addresses and
that `name` stands for. -/
structure Receives (vm vm' : Vm σ) (name : String) (k : Handle)
    (library : FunctionTable (NativeFunction σ)) (rejected : ℕ) : Prop where
  /-- Names of modules stand for what they did, except that `name` may be new. -/
  modules : ∀ n, vm'.getModule n = if n = name then some k else vm.getModule n
  /-- The module is the one that there was, with its top-level code, or it is new and has got a
  new one. -/
  module : ∃ m, vm'.object? k = some (.module m) ∧ m.name = name ∧
    vm'.object? m.init = some (.function (initFunction k)) ∧
    ((∃ old, vm.getModule name = some k ∧ vm.object? k = some (.module old) ∧ old.name = name ∧
        m.init = old.init) ∨
      vm.getModule name = none ∧ ¬ vm.table.Issued k ∧ ¬ vm.table.Issued m.init)
  /-- Under each name of the library there is a new function of the module, with the arity and the
  body that the library has for the name. -/
  added : ∀ n f, library.get? n = some f → ∃ h, vm'.getFunction name n = some h ∧
    ¬ vm.table.Issued h ∧ vm'.object? h = some (.function ⟨n, k, f.argc, .native f.body⟩)
  /-- Under every other name the module has what it had. -/
  kept : ∀ n, library.get? n = none → vm'.getFunction name n = vm.getFunction name n
  /-- Whatever else there was is as it was. -/
  others : ∀ h o, vm.object? h = some o → h ≠ k → vm'.object? h = some o
  /-- Nothing else is new. -/
  origin : ∀ h o, vm'.object? h = some o → vm.object? h = some o ∨ h = k ∨ vm'.BeginsWith k h ∨
    ∃ n, library.get? n ≠ none ∧ vm'.getFunction name n = some h
  /-- Reports, heap counters, scopes, handlers and the memory are as they were, and the loading is
  recorded. -/
  rest : vm' =
    { vm with
      table := vm'.table
      modules := vm'.modules
      journal := vm.journal.push (.libraryLoaded name library.size rejected) }

variable {name : String} {k : Handle} {m : Module} {library : FunctionTable (NativeFunction σ)}
  {rejected : ℕ}

theorem attach_eq (vm : Vm σ) (name : String) (k : Handle)
    (library : FunctionTable (NativeFunction σ)) (rejected : ℕ) :
    (vm.attach name k library rejected).2 =
      { vm with
        table := (vm.attach name k library rejected).2.table
        journal := vm.journal.push (.libraryLoaded name library.size rejected) } := by
  simp only [attach, record]
  rw [addFunctions_eq]

theorem holdings_attach (vm : Vm σ) (name : String) (k : Handle)
    (library : FunctionTable (NativeFunction σ)) (rejected : ℕ) :
    (vm.attach name k library rejected).2.holdings =
      vm.holdings.after (library.entries.map (added k)) :=
  (holdings_record _ _).trans (vm.holdings_addFunctions k library.entries)

theorem gained_attach (hs : vm.table.Sound) (hk : vm.object? k = some (.module m))
    (hnd : library.names.Nodup)
    (hf : (vm.attach name k library rejected).2.table.Addressable) :
    ∃ m', Gained vm.holdings (vm.attach name k library rejected).2.holdings k m m'
      library.entries := by
  rw [← table_holdings, holdings_attach] at hf
  rw [holdings_attach]
  exact gained_added (x := vm.holdings) hs hk hnd hf

/-- The module that there is receives a library. -/
theorem receives_attach (hs : vm.table.Sound) (hx : Registered vm.holdings)
    (hk : vm.getModule name = some k) (hnd : library.names.Nodup)
    (hf : (vm.attach name k library rejected).2.table.Addressable) :
    vm.Receives (vm.attach name k library rejected).2 name k library rejected := by
  obtain ⟨m, hm, hname⟩ := hx.named hk
  obtain ⟨m', h⟩ := gained_attach hs hm hnd hf
  have hmodules : (vm.attach name k library rejected).2.modules = vm.modules := by rw [attach_eq]
  have hk' : (vm.attach name k library rejected).2.getModule name = some k :=
    (congrArg (Dict.get? · name) hmodules).trans hk
  have hfunction := getFunction_of_module hk' h.module
  have hlookup : ∀ n, library.get? n = library.entries.lookup n := FunctionTable.get?_eq_lookup hnd
  have hinit := hx.init hm
  have hne : m.init ≠ k := fun e => by rw [e, hm] at hinit; cases hinit
  refine ⟨fun n => ?_, ⟨m', h.module, h.name.trans hname, ?_, .inl ⟨m, hk, hm, hname, h.init⟩⟩,
    fun n f hn => ?_, fun n hn => ?_, h.others, fun j o hj => ?_, ?_⟩
  · split
    · next he => rw [he, hk']
    · exact congrArg (Dict.get? · n) hmodules
  · rw [h.init]
    exact h.others _ _ hinit hne
  · rw [hfunction]
    exact h.added n f (hlookup n ▸ hn)
  · rw [hfunction, getFunction_of_module hk hm]
    exact h.kept n (hlookup n ▸ hn)
  · rcases h.origin j o hj with hjk | hold | ⟨n, hn, hlisted⟩
    · exact .inr (.inl hjk)
    · exact .inl hold
    · exact .inr (.inr (.inr ⟨n, (hlookup n).symm ▸ hn, (hfunction n).trans hlisted⟩))
  · rw [hmodules]
    exact vm.attach_eq name k library rejected

/-- A new module receives a library. -/
theorem receives_createModule (hs : vm.table.Sound) (hk : vm.getModule name = none)
    (hnd : library.names.Nodup)
    (hf : ((vm.createModule name).2.attach name (vm.createModule name).1 library
      rejected).2.table.Addressable) :
    vm.Receives ((vm.createModule name).2.attach name (vm.createModule name).1 library rejected).2
      name (vm.createModule name).1 library rejected := by
  have hf₁ : (Move.apply vm.holdings (.createModule name)).table.Addressable := by
    rw [← table_holdings, holdings_attach] at hf
    exact Holdings.addressable_of_after hf
  obtain ⟨hnew, hinit, hne, hissued, hget⟩ := Move.get?_createModule (x := vm.holdings) hs hf₁
  have hm : (vm.createModule name).2.object? (vm.createModule name).1 =
      some (.module ⟨name, .empty, Move.newInit vm.table name⟩) := (hget _).trans (if_pos rfl)
  obtain ⟨m', h⟩ := gained_attach (Handle.Table.sound_replay hs hf₁) hm hnd hf
  have hlookup : ∀ n, library.get? n = library.entries.lookup n := FunctionTable.get?_eq_lookup hnd
  have hmodules : ((vm.createModule name).2.attach name (vm.createModule name).1 library
      rejected).2.modules = vm.modules.set name (vm.createModule name).1 := by
    rw [attach_eq]
    rfl
  have hmodule : ∀ n, ((vm.createModule name).2.attach name (vm.createModule name).1 library
      rejected).2.getModule n =
        if n = name then some (vm.createModule name).1 else vm.getModule n :=
    fun n => (congrArg (Dict.get? · n) hmodules).trans (Dict.get?_set _ _ _ _)
  have hfunction := getFunction_of_module ((hmodule name).trans (if_pos rfl)) h.module
  refine ⟨hmodule, ⟨m', h.module, h.name, ?_, .inr ⟨hk, hnew, ?_⟩⟩, fun n f hn => ?_,
    fun n hn => ?_, fun j o hj hjk => ?_, fun j o hj => ?_, ?_⟩
  · rw [h.init]
    exact h.others _ _ ((hget _).trans ((if_neg hne).trans (if_pos rfl))) hne
  · rw [h.init]
    exact hinit
  · rw [hfunction]
    obtain ⟨j, hlisted, hj, hobject⟩ := h.added n f (hlookup n ▸ hn)
    exact ⟨j, hlisted, fun hold => hj ((hissued j).mpr (.inr (.inr hold))), hobject⟩
  · -- no function had a name in a module that there was not
    rw [hfunction, h.kept n (hlookup n ▸ hn), getFunction, hk]
    rfl
  · have hji := Handle.Table.ne_of_issued (Handle.Table.issued_of_get? hs hj) hinit
    exact h.others j o ((hget j).trans ((if_neg hjk).trans ((if_neg hji).trans hj))) hjk
  · rcases h.origin j o hj with hjk | hold | ⟨n, hn, hlisted⟩
    · exact .inr (.inl hjk)
    · replace hold := (hget j).symm.trans hold
      split at hold
      · next hjk => exact .inr (.inl hjk)
      · split at hold
        · next hji => exact .inr (.inr (.inl ⟨m', h.module, h.init.trans hji.symm⟩))
        · exact .inl hold
    · exact .inr (.inr (.inr ⟨n, (hlookup n).symm ▸ hn, (hfunction n).trans hlisted⟩))
  · rw [hmodules]
    exact attach_eq _ _ _ _ _

/-- What attaching a library comes to is decided by the names that the module has. -/
theorem attachLibrary_eq (hx : Registered vm.holdings) (name : String)
    (library : FunctionTable (NativeFunction σ)) (rejected : ℕ) :
    match library.names.find? fun n => (vm.getFunction name n).isSome with
    | some taken =>
      vm.attachLibrary name library rejected = (.error (.duplicateFunction name taken), vm)
    | none =>
      vm.getModule name = none ∧ vm.attachLibrary name library rejected =
          (vm.createModule name).2.attach name (vm.createModule name).1 library rejected ∨
        ∃ k, vm.getModule name = some k ∧
          vm.attachLibrary name library rejected = vm.attach name k library rejected := by
  cases hk : vm.getModule name with
  | none =>
    have hfind : (library.names.find? fun n => (vm.getFunction name n).isSome) = none :=
      List.find?_eq_none.mpr fun n _ => by simp [getFunction, hk]
    rw [hfind]
    exact .inl ⟨rfl, by simp [attachLibrary, hk]⟩
  | some k =>
    obtain ⟨m, hm, -⟩ := hx.named hk
    have hmodule : vm.module? k = some m := module?_eq_some.mpr hm
    have hnames : (fun n => (vm.getFunction name n).isSome) = m.functions.contains :=
      funext fun n => by rw [getFunction_of_module hk hm, Dict.contains]
    rw [hnames]
    cases hfind : library.names.find? m.functions.contains with
    | some taken => simp [attachLibrary, hk, hmodule, hfind]
    | none => exact .inr ⟨k, rfl, by simp [attachLibrary, hk, hmodule, hfind]⟩

/-- What a function that a library adds to an existing module is. -/
theorem object?_attachLibrary (hs : vm.table.Sound) (hx : Registered vm.holdings)
    (name n : String) (f : NativeFunction σ) {k : Handle} (hk : vm.getModule name = some k)
    (hn : vm.getFunction name n = none)
    (hf : (vm.addFunction k n f.argc (.native f.body)).2.table.Addressable) :
    (Act.perform vm (.attachLibrary name ⟨[(n, f)]⟩ 0)).object?
        (vm.addFunction k n f.argc (.native f.body)).1 =
      some (.function ⟨n, k, f.argc, .native f.body⟩) := by
  obtain ⟨m, hm, -⟩ := hx.named hk
  have hattach := attachLibrary_eq hx name ⟨[(n, f)]⟩ 0
  simp only [FunctionTable.names, List.map_cons, List.map_nil, List.find?_cons, hn,
    Option.isSome_none, List.find?_nil, hk, reduceCtorEq, false_and, false_or, Option.some.injEq,
    exists_eq_left'] at hattach
  rw [Act.perform, hattach]
  exact object?_addFunction hs hm hf

theorem addressable_of_attachLibrary
    (hf : (vm.attachLibrary name library rejected).2.table.Addressable) :
    vm.table.Addressable := by
  rw [← table_holdings, holdings_attachLibrary] at hf
  exact Holdings.addressable_of_after hf

end Vm

/-- **Loading is atomic.** In every state that a machine reaches, a library whose name is invalid is
refused: nothing changes, and its loader does not run. Otherwise the loader runs, with the scopes
that it is lent, and let `left` be the machine that it leaves. If the module has one of the
registered names by then, the error has the first of them in the order of registration, and the
machine stays `left`. If not, the answer is the module, and the machine is `left` with the library
in the module. -/
theorem load_library_atomic {options : Options} {memory : σ} {past : List (Step σ)}
    (hpast : Steps (Vm.new options memory) past vm) (fuel : ℕ) (lent : List ScopeId) (name : String)
    (loader : Program σ .loader) :
    (validName name = false → ∀ enter : Enter σ,
      loadLibrary enter lent name loader vm = .finished (.error (.invalidName name)) vm) ∧
    (validName name = true → ∀ answer left,
      run fuel loader (.loading name lent) (vm.record (.entered (.loader name))) =
        .finished answer left →
      ∃ result vm', loadLibrary (run fuel) lent name loader vm = .finished result vm' ∧
        (vm'.table.Addressable →
          match answer.2.finish.names.find? fun n => (left.getFunction name n).isSome with
          | some taken => result = .error (.duplicateFunction name taken) ∧ vm' = left
          | none => ∃ k, result = .ok k ∧
              left.Receives vm' name k answer.2.finish answer.2.rejected)) := by
  refine ⟨fun hname enter => by simp [loadLibrary, hname], fun hname answer left hrun => ?_⟩
  refine ⟨_, _, by simp only [loadLibrary, hname, if_true, hrun, Outcome.bind_finished]; rfl,
    fun hf => ?_⟩
  -- the machine that the loader leaves is one that the machine reaches
  have hentered := hpast.snoc (.note (.entered (.loader name))) trivial
  have hcounted := hentered.scopesCounted (Vm.scopesCounted_new options memory)
  obtain ⟨_, hloaded⟩ := steps_of_run_eq_finished hcounted rfl (Registrar.clean_new name) hrun
  have hclean := ((enters_run fuel loader _ _ rfl (Registrar.clean_new name) hcounted).post
    answer left hrun).2
  have hleft := hentered.trans hloaded
  have hs := hleft.sound (Vm.sound_new options memory) (Vm.addressable_of_attachLibrary hf)
  have hx := hleft.registered (Vm.addressable_of_attachLibrary hf)
  have hattach := Vm.attachLibrary_eq hx name answer.2.finish answer.2.rejected
  split
  · next taken hfind =>
    rw [hfind] at hattach
    exact ⟨congrArg Prod.fst hattach, congrArg Prod.snd hattach⟩
  · next hfind =>
    rw [hfind] at hattach
    rcases hattach with ⟨hk, hattach⟩ | ⟨k, hk, hattach⟩
    · rw [hattach] at hf ⊢
      exact ⟨_, rfl, Vm.receives_createModule hs hk hclean.1 hf⟩
    · rw [hattach] at hf ⊢
      exact ⟨_, rfl, Vm.receives_attach hs hx hk hclean.1 hf⟩

/-- A loader that registers a function, and while it runs defines another one in the module of the
tour and mints an integer through the scope of the tour. -/
def tourLoader (name : String) : Program Unit .loader :=
  .register name 1 (fun _ _ => .done (r := .native) (NativeAnswer.returned Handle.null)) fun _ =>
    .defineScript (.ofParts 0 1) "late" 0 (fun _ => .done (r := .script) (Except.ok none)) fun _ =>
      .within ⟨0⟩ (.mint (.int 9)) fun _ => .done ()

/-- The run of this loader in the midst of the tour, which lends it the scope. -/
def tourLoading (name : String) : Outcome Unit (Unit × Registrar (NativeFunction Unit)) :=
  run 1 (tourLoader name) (.loading "tour" [⟨0⟩]) (midTour.record (.entered (.loader "tour")))

/-- The first of the names that the loader registered and the module has. -/
def tourTaken (answer : Unit × Registrar (NativeFunction Unit)) (left : Vm Unit) :
    Option String :=
  answer.2.finish.names.find? fun n => (left.getFunction "tour" n).isSome

theorem tourLoading_eq_finished (name : String) (taken : Option String)
    (h : (tourLoading name).answer?.map (tourTaken · (tourLoading name).vm) = some taken) :
    ∃ answer left, tourLoading name = .finished answer left ∧ tourTaken answer left = taken := by
  obtain ⟨answer, hanswer, htaken⟩ := Option.map_eq_some_iff.mp h
  exact ⟨answer, _, Outcome.eq_finished hanswer, htaken⟩

/-- In the midst of the tour, a library is refused if its loader itself takes the name, and attached
if it does not. -/
theorem load_library_atomic_midTour :
    (∃ answer left, tourLoading "late" = .finished answer left ∧
      loadLibrary (run 1) [⟨0⟩] "tour" (tourLoader "late") midTour =
        .finished (.error (.duplicateFunction "tour" "late")) left) ∧
    ∃ answer left vm' k, tourLoading "early" = .finished answer left ∧
      loadLibrary (run 1) [⟨0⟩] "tour" (tourLoader "early") midTour = .finished (.ok k) vm' ∧
      left.Receives vm' "tour" k answer.2.finish answer.2.rejected := by
  obtain ⟨past, hpast⟩ := steps_midTour
  have hname : validName "tour" = true := by decide
  constructor
  · obtain ⟨answer, left, hrun, htaken⟩ :=
      tourLoading_eq_finished "late" (some "late") (by decide +kernel)
    obtain ⟨result, vm', hload, hend⟩ :=
      (load_library_atomic hpast 1 [⟨0⟩] "tour" (tourLoader "late")).2 hname answer left hrun
    have hf :
        (loadLibrary (run 1) [⟨0⟩] "tour" (tourLoader "late") midTour).vm.table.Addressable := by
      unfold Addressable
      decide +kernel
    rw [hload] at hf
    replace hend := hend hf
    rw [← tourTaken, htaken] at hend
    obtain ⟨rfl, rfl⟩ := hend
    exact ⟨answer, _, hrun, hload⟩
  · obtain ⟨answer, left, hrun, htaken⟩ :=
      tourLoading_eq_finished "early" none (by decide +kernel)
    obtain ⟨result, vm', hload, hend⟩ :=
      (load_library_atomic hpast 1 [⟨0⟩] "tour" (tourLoader "early")).2 hname answer left hrun
    have hf :
        (loadLibrary (run 1) [⟨0⟩] "tour" (tourLoader "early") midTour).vm.table.Addressable := by
      unfold Addressable
      decide +kernel
    rw [hload] at hf
    replace hend := hend hf
    rw [← tourTaken, htaken] at hend
    obtain ⟨k, rfl, hreceives⟩ := hend
    exact ⟨answer, left, vm', k, hrun, hload, hreceives⟩

end NativeBridge
