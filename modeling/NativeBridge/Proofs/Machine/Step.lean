import NativeBridge.Proofs.Machine.Registration

/-!
# Steps of a machine

All that a machine does, it does by *acts*: the operations that programs request, and what the
machine itself does in between when it enters a program and goes on with the answer. A *step* is
an act together with the state that it found, and a history of a machine is a list of steps.

`Act.Allowed` says when a machine acts: operations are made through open scopes, scopes are opened
for functions that there are, reports name what was called. Every act is a sequence of moves
(`Act.holdings_perform`), which the machine may make (`Act.moves_perform`), so that invariants of
moves are invariants of histories (`Steps.inv`).
-/

namespace NativeBridge

open Handle (Fate)

open Handle.Table (Addressable Sound)

variable {σ : Type}

/-! ### Acts -/

/-- What a machine does at once. -/
inductive Act (σ : Type) where
  /-- An operation through a scope. -/
  | within (id : ScopeId) (op : ScopeOp)
  /-- An operation of the host. -/
  | host (op : HostOp)
  | openScope (site : Site)
  | closeScope (id : ScopeId)
  /-- The result of a call becomes a handle of the caller's scope. -/
  | deliver (id : ScopeId) (value : Value)
  /-- A report goes to the module of a scope. -/
  | report (id : ScopeId) (r : Report)
  /-- The report of an invocation goes to the module of the function. -/
  | reportInvoked (r : Report)
  /-- A fault occurs. -/
  | occur (fault : Fault)
  | defineScript (module : Handle) (name : String) (argc : UInt64) (body : ScriptBody σ)
  /-- What the loader of a library registered is attached to a module. -/
  | attachLibrary (name : String) (library : FunctionTable (NativeFunction σ)) (rejected : ℕ)
  | addHandler (handler : Handler σ)
  | remember (memory : σ)
  /-- An event is recorded. -/
  | note (e : Event)

/-- A machine that acts. -/
structure Step (σ : Type) where
  /-- The machine before it acts. -/
  before : Vm σ
  act : Act σ

/-- An event that is recorded apart from the operations. -/
def Event.IsNote : Event → Prop
  | nameRejected _ _ => True
  | nameTaken _ _ => True
  | dispatched _ _ _ => True
  | interrupted _ _ _ => True
  | entered _ => True
  | _ => False

/-- The handle `f` addressed the function `callee` at some moment up to now. -/
def Known (past : List (Step σ)) (vm : Vm σ) (f : Handle) (callee : Function σ) : Prop :=
  vm.object? f = some (.function callee) ∨
    ∃ s ∈ past, s.before.object? f = some (.function callee)

theorem Known.append {past : List (Step σ)} {vm : Vm σ} {f : Handle} {callee : Function σ}
    (hk : Known past vm f callee) (earlier : List (Step σ)) :
    Known (earlier ++ past) vm f callee := by
  rcases hk with hnow | ⟨s, hs, hthen⟩
  · exact .inl hnow
  · exact .inr ⟨s, List.mem_append_right _ hs, hthen⟩

/-- Reports of a fault of the body of a function. -/
inductive FaultReport (f : Handle) (callee : Function σ) : Report → Prop
  | native (n : ℕ) (fault : CallFault) :
    FaultReport f callee
      ⟨callee.module, f, true, .critical, some ⟨n, .call fault⟩, .nativeFault fault⟩
  | script (n : ℕ) (e : ScriptError) :
    FaultReport f callee
      ⟨callee.module, f, false, .critical, some ⟨n, .script e⟩, .scriptFault callee.name⟩

/-- Reports that calls and interrupts leave with the module of a site, if the functions that
were called are among the known ones. -/
inductive Raised (known : Handle → Function σ → Prop) (severity : Severity) (site : Site) :
    Report → Prop
  | arity (name : String) (argc : UInt64) (given : ℕ) :
    Raised known severity site
      ⟨site.module, site.function, true, .error, none, .arity name argc given⟩
  | fault {f : Handle} {callee : Function σ} {r : Report} (hk : known f callee)
    (hr : FaultReport f callee r) : Raised known severity site r
  | shape {f : Handle} {callee : Function σ} (hk : known f callee) (found : String)
    (wanted : Shape) :
    Raised known severity site
      ⟨callee.module, f, false, severity, none, .shape callee.name found wanted⟩
  | interruptFailed (label reason : String) :
    Raised known severity site
      ⟨site.module, site.function, false, .error, none, .interruptFailed label reason⟩
  | interruptUnhandled (label : String) :
    Raised known severity site
      ⟨site.module, site.function, false, .error, none, .interruptUnhandled label⟩
  | interruptFault (n : ℕ) (fault : CallFault) :
    Raised known severity site
      ⟨site.module, site.function, true, .critical, some ⟨n, .call fault⟩, .nativeFault fault⟩

theorem Raised.mono {known known' : Handle → Function σ → Prop} {severity : Severity}
    {site : Site} {r : Report} (hr : Raised known severity site r)
    (hk : ∀ f callee, known f callee → known' f callee) : Raised known' severity site r := by
  cases hr with
  | arity name argc given => exact .arity name argc given
  | fault h hr => exact .fault (hk _ _ h) hr
  | shape h found wanted => exact .shape (hk _ _ h) found wanted
  | interruptFailed label reason => exact .interruptFailed label reason
  | interruptUnhandled label => exact .interruptUnhandled label
  | interruptFault n fault => exact .interruptFault n fault

namespace Act

/-- The machine after it acts. -/
def perform (vm : Vm σ) : Act σ → Vm σ
  | within id op =>
    match vm.scopes.get? id with
    | some scope => (op.perform vm id scope).2
    | none => vm
  | host op => (op.perform vm).2
  | openScope site => (vm.openScope site).2
  | closeScope id => vm.closeScope id
  | deliver id value => (vm.mint id value).2
  | report id r =>
    match vm.scopes.get? id with
    | some scope => vm.push scope.module r
    | none => vm
  | reportInvoked r => vm.push r.module r
  | occur fault => (vm.occur fault).2
  | defineScript module name argc body => (vm.defineScript module name argc body).2
  | attachLibrary name library rejected => (vm.attachLibrary name library rejected).2
  | addHandler handler => { vm with handlers := vm.handlers ++ [handler] }
  | remember memory => { vm with memory := memory }
  | note e => vm.record e

/-- What is done through an open scope. -/
theorem perform_within {vm : Vm σ} {id : ScopeId} {scope : Scope}
    (hid : vm.scopes.get? id = some scope) (op : ScopeOp) :
    perform vm (.within id op) = (op.perform vm id scope).2 := by
  rw [perform, hid]

/-- When a machine acts. -/
def Allowed (past : List (Step σ)) (vm : Vm σ) : Act σ → Prop
  | within id _ => ∃ scope, vm.scopes.get? id = some scope
  | openScope site =>
    (∃ f, vm.functionSite f = .ok site) ∨ ∃ module, vm.moduleSite module = .ok site
  | deliver id _ => ∃ scope, vm.scopes.get? id = some scope
  | report id r => ∃ scope, vm.scopes.get? id = some scope ∧
      Raised (Known past vm) vm.options.defaultSeverity scope.site r
  | reportInvoked r => ∃ f callee, Known past vm f callee ∧ FaultReport f callee r
  | attachLibrary name library _ =>
    validName name = true ∧ library.names.Nodup ∧ ∀ n ∈ library.names, validName n = true
  | note e => e.IsNote
  | _ => True

theorem Allowed.append {past : List (Step σ)} {vm : Vm σ} {act : Act σ}
    (ha : act.Allowed past vm) (earlier : List (Step σ)) : act.Allowed (earlier ++ past) vm := by
  cases act with
  | report id r =>
    obtain ⟨scope, hid, hr⟩ := ha
    exact ⟨scope, hid, hr.mono fun f callee hk => hk.append earlier⟩
  | reportInvoked r =>
    obtain ⟨f, callee, hk, hr⟩ := ha
    exact ⟨f, callee, hk.append earlier, hr⟩
  | _ => exact ha

end Act

/-! ### Acts as moves -/

/-- The moves of an operation through a scope. -/
def ScopeOp.moves (vm : Vm σ) (id : ScopeId) : ScopeOp → List (Move σ)
  | mint s => [.mint id s]
  | alloc size => vm.allocMoves size
  | resize block size => vm.resizeMoves block size
  | free block => vm.freeMoves block
  | read block offset =>
    match vm.read block offset with
    | .ok (some v) => Vm.mintMoves id v
    | _ => []
  | write block offset value => vm.writeMoves block offset value
  | _ => []

theorem ScopeOp.holdings_perform (vm : Vm σ) (id : ScopeId) (scope : Scope) (op : ScopeOp) :
    (op.perform vm id scope).2.holdings = vm.holdings.after (op.moves vm id) := by
  cases op with
  | mint s => exact vm.holdings_mint id (.scalar s)
  | alloc size => exact vm.holdings_alloc scope.site size
  | resize block size => exact vm.holdings_resize scope.site block size
  | free block => exact vm.holdings_free scope.site block
  | read block offset =>
    simp only [perform, moves]
    split
    · next e he => simp [he]
    · next he => simp [he]
    · next v he => simpa [he] using vm.holdings_mint id v
  | write block offset value =>
    cases hw : vm.write block offset value with
    | error e => simp [perform, moves, Vm.keepOnError, Vm.writeMoves, hw]
    | ok vm' => simpa [perform, moves, Vm.keepOnError, Vm.writeMoves, hw] using Vm.holdings_write hw
  | _ => rfl

theorem ScopeOp.moves_perform {vm : Vm σ} {id : ScopeId} {scope : Scope}
    (hid : vm.scopes.get? id = some scope) (op : ScopeOp) :
    Moves vm.holdings (op.moves vm id) := by
  cases op with
  | mint s => exact Vm.moves_mint hid (.scalar s)
  | alloc size => exact vm.moves_alloc size
  | resize block size => exact vm.moves_resize block size
  | free block => exact vm.moves_free block
  | read block offset =>
    simp only [moves]
    split
    · exact Vm.moves_mint hid _
    · trivial
  | write block offset value => exact vm.moves_write block offset value
  | _ => trivial

/-- The moves of an operation of the host. -/
def HostOp.moves (vm : Vm σ) : HostOp → List (Move σ)
  | defineModule name => vm.defineModuleMoves name
  | protect block offset protection => vm.protectMoves block offset protection
  | release h => Vm.releases vm.table [h]
  | _ => []

theorem HostOp.holdings_perform (vm : Vm σ) (op : HostOp) :
    (op.perform vm).2.holdings = vm.holdings.after (op.moves vm) := by
  cases op with
  | defineModule name => exact vm.holdings_defineModule name
  | protect block offset p =>
    cases hp : vm.protect block offset p with
    | error e => simp [perform, moves, Vm.keepOnError, Vm.protectMoves, hp]
    | ok vm' =>
      simpa [perform, moves, Vm.keepOnError, Vm.protectMoves, hp] using Vm.holdings_protect hp
  | release h => exact vm.holdings_release h
  | _ => rfl

theorem HostOp.moves_perform (vm : Vm σ) (op : HostOp) : Moves vm.holdings (op.moves vm) := by
  cases op with
  | defineModule name => exact vm.moves_defineModule name
  | protect block offset p => exact vm.moves_protect block offset p
  | release h => exact Vm.moves_releases vm.holdings [h]
  | _ => trivial

namespace Act

/-- The moves of an act. -/
def moves (vm : Vm σ) : Act σ → List (Move σ)
  | within id op => op.moves vm id
  | host op => op.moves vm
  | openScope site => [.openScope site]
  | closeScope id => vm.closeMoves id
  | deliver id value => Vm.mintMoves id value
  | defineScript module name argc body => vm.defineScriptMoves module name argc body
  | attachLibrary name library _ => vm.attachMoves name library
  | _ => []

theorem holdings_perform {past : List (Step σ)} {vm : Vm σ} {act : Act σ}
    (ha : act.Allowed past vm) : (act.perform vm).holdings = vm.holdings.after (act.moves vm) := by
  cases act with
  | within id op =>
    obtain ⟨scope, hid⟩ := ha
    simpa [perform, hid, moves] using op.holdings_perform vm id scope
  | host op => exact op.holdings_perform vm
  | closeScope id => exact vm.holdings_closeScope id
  | deliver id value => exact vm.holdings_mint id value
  | report id r =>
    obtain ⟨scope, hid, -⟩ := ha
    simp [perform, hid, moves]
  | reportInvoked r => exact vm.holdings_push r.module r
  | defineScript module name argc body => exact vm.holdings_defineScript module name argc body
  | attachLibrary name library rejected => exact vm.holdings_attachLibrary name library rejected
  | _ => rfl

theorem moves_perform {past : List (Step σ)} {vm : Vm σ} {act : Act σ}
    (ha : act.Allowed past vm) (hs : vm.table.Sound) (hf : (act.perform vm).table.Addressable) :
    Moves vm.holdings (act.moves vm) := by
  cases act with
  | within id op =>
    obtain ⟨scope, hid⟩ := ha
    exact op.moves_perform hid
  | host op => exact op.moves_perform vm
  | openScope site => exact ⟨trivial, trivial⟩
  | closeScope id => exact Vm.moves_closeScope hs id
  | deliver id value =>
    obtain ⟨scope, hid⟩ := ha
    exact Vm.moves_mint hid value
  | defineScript module name argc body => exact vm.moves_defineScript module name argc body
  | attachLibrary name library rejected =>
    refine moves_attachLibrary hs ha.1 ha.2.1 ha.2.2 ?_
    rw [← vm.holdings_attachLibrary name library rejected]
    exact hf
  | _ => trivial

theorem addressable {past : List (Step σ)} {vm : Vm σ} {act : Act σ} (ha : act.Allowed past vm)
    (hf : (act.perform vm).table.Addressable) : vm.table.Addressable := by
  rw [← Vm.table_holdings, holdings_perform ha] at hf
  exact Holdings.addressable_of_after hf

end Act

/-! ### Causes of moves -/

/-- The acts of a machine that make a move. -/
def Move.CausedBy (vm : Vm σ) (act : Act σ) : Move σ → Prop
  | mint id s => (∃ op, act = .within id op) ∨ act = .deliver id (.scalar s)
  | release h => act = .host (.release h) ∨ ∃ id, act = .closeScope id
  | alloc size =>
    ∃ id, act = .within id (.alloc size) ∨ act = .within id (.resize Handle.null size)
  | free h => ∃ id, act = .within id (.free h) ∨ act = .within id (.resize h 0)
  | resize h size => ∃ id, act = .within id (.resize h size)
  | write h offset _ => ∃ id value, act = .within id (.write h offset value)
  | protect h offset p => act = .host (.protect h offset p)
  | createModule name =>
    act = .host (.defineModule name) ∨
      ∃ library rejected, act = .attachLibrary name library rejected
  | addFunction module name argc _ =>
    (∃ body, act = .defineScript module name argc body) ∨
      ∃ name library rejected, act = .attachLibrary name library rejected ∧
        (vm.attachLibrary name library rejected).1 = .ok module
  | openScope site => act = .openScope site
  | closeScope id => act = .closeScope id

theorem Vm.mem_mintMoves {id : ScopeId} {v : Value} {m : Move σ} (hm : m ∈ mintMoves id v) :
    ∃ s, v = .scalar s ∧ m = .mint id s := by
  cases v with
  | scalar s => exact ⟨s, rfl, by simpa [mintMoves] using hm⟩
  | _ => simp [mintMoves] at hm

theorem Vm.mem_releases {t : Handle.Table (Object σ)} {hs : List Handle} {m : Move σ}
    (hm : m ∈ releases t hs) : ∃ h ∈ hs, m = .release h := by
  induction hs generalizing t with
  | nil => cases hm
  | cons h hs ih =>
    unfold releases at hm
    split at hm
    · rcases List.mem_cons.mp hm with rfl | hm
      · exact ⟨h, List.mem_cons_self, rfl⟩
      · obtain ⟨k, hk, rfl⟩ := ih hm
        exact ⟨k, List.mem_cons_of_mem _ hk, rfl⟩
    · obtain ⟨k, hk, rfl⟩ := ih hm
      exact ⟨k, List.mem_cons_of_mem _ hk, rfl⟩

theorem ScopeOp.causedBy_of_mem {vm : Vm σ} {id : ScopeId} {op : ScopeOp} {m : Move σ}
    (hm : m ∈ op.moves vm id) : m.CausedBy vm (.within id op) := by
  cases op with
  | mint s =>
    obtain rfl := List.mem_singleton.mp hm
    exact .inl ⟨_, rfl⟩
  | alloc size =>
    obtain rfl := Vm.mem_allocMoves hm
    exact ⟨id, .inl rfl⟩
  | resize block size =>
    -- the null handle asks for a new block, and the size zero for the end of the old one
    simp only [moves, Vm.resizeMoves] at hm
    split at hm
    · next hnull =>
      split at hm
      · cases hm
      · obtain rfl := Vm.mem_allocMoves hm
        exact ⟨id, .inr (by rw [Handle.isNull_iff.mp hnull])⟩
    · split at hm
      · next hzero =>
        obtain rfl := Vm.mem_freeMoves hm
        exact ⟨id, .inr (by rw [hzero])⟩
      · obtain rfl := Vm.mem_resizeBlockMoves hm
        exact ⟨id, rfl⟩
  | free block =>
    obtain rfl := Vm.mem_freeMoves hm
    exact ⟨id, .inl rfl⟩
  | read block offset =>
    simp only [moves] at hm
    split at hm
    · obtain ⟨s, -, rfl⟩ := Vm.mem_mintMoves hm
      exact .inl ⟨_, rfl⟩
    · cases hm
  | write block offset value =>
    simp only [moves, Vm.writeMoves] at hm
    split at hm
    · obtain rfl := List.mem_singleton.mp hm
      exact ⟨id, value, rfl⟩
    · cases hm
  | _ => cases hm

theorem HostOp.causedBy_of_mem {vm : Vm σ} {op : HostOp} {m : Move σ} (hm : m ∈ op.moves vm) :
    m.CausedBy vm (.host op) := by
  cases op with
  | defineModule name =>
    simp only [moves, Vm.defineModuleMoves] at hm
    split at hm
    · obtain rfl := List.mem_singleton.mp hm
      exact .inl rfl
    · cases hm
  | protect block offset p =>
    simp only [moves, Vm.protectMoves] at hm
    split at hm
    · obtain rfl := List.mem_singleton.mp hm
      exact rfl
    · cases hm
  | release h =>
    obtain ⟨k, hk, rfl⟩ := Vm.mem_releases hm
    exact .inl (by rw [List.mem_singleton.mp hk])
  | _ => cases hm

theorem Vm.causedBy_of_mem_attach {vm : Vm σ} {name : String}
    {library : FunctionTable (NativeFunction σ)} (rejected : ℕ) {m : Move σ}
    (hm : m ∈ vm.attachMoves name library) :
    m.CausedBy vm (.attachLibrary name library rejected) := by
  cases hget : vm.getModule name with
  | none =>
    simp only [attachMoves, hget, List.mem_cons, List.mem_map] at hm
    rcases hm with rfl | ⟨f, -, rfl⟩
    · exact .inr ⟨library, rejected, rfl⟩
    · exact .inr ⟨name, library, rejected, rfl, by simp [attachLibrary, hget, attach]⟩
  | some module =>
    cases hmod : vm.module? module with
    | none => simp [attachMoves, hget, hmod] at hm
    | some md =>
      cases hfind : library.names.find? md.functions.contains with
      | some taken => simp [attachMoves, hget, hmod, hfind] at hm
      | none =>
        simp only [attachMoves, hget, hmod, hfind, List.mem_map] at hm
        obtain ⟨f, -, rfl⟩ := hm
        exact .inr ⟨name, library, rejected, rfl, by
          simp [attachLibrary, hget, hmod, hfind, attach]⟩

/-- **Causes.** Every move of an act is one that the act may cause. -/
theorem Act.causedBy_of_mem {vm : Vm σ} {act : Act σ} {m : Move σ} (hm : m ∈ act.moves vm) :
    m.CausedBy vm act := by
  cases act with
  | within id op => exact op.causedBy_of_mem hm
  | host op => exact op.causedBy_of_mem hm
  | openScope site =>
    obtain rfl := List.mem_singleton.mp hm
    exact rfl
  | closeScope id =>
    -- the moves of closing are the releases of locals, and the closing itself
    simp only [moves, Vm.closeMoves] at hm
    split at hm
    · cases hm
    · rcases List.mem_append.mp hm with hm | hm
      · obtain ⟨h, -, rfl⟩ := Vm.mem_releases hm
        exact .inr ⟨id, rfl⟩
      · obtain rfl := List.mem_singleton.mp hm
        exact rfl
  | deliver id value =>
    obtain ⟨s, rfl, rfl⟩ := Vm.mem_mintMoves hm
    exact .inr rfl
  | defineScript module name argc body =>
    simp only [moves, Vm.defineScriptMoves] at hm
    split at hm
    · obtain rfl := List.mem_singleton.mp hm
      exact .inl ⟨body, rfl⟩
    · cases hm
  | attachLibrary name library rejected => exact vm.causedBy_of_mem_attach rejected hm
  | _ => cases hm

/-! ### Histories -/

/-- The machine `vm` is what becomes of `vm₀` by some steps, the earliest in front. -/
inductive Steps (vm₀ : Vm σ) : List (Step σ) → Vm σ → Prop
  | refl : Steps vm₀ [] vm₀
  | snoc {past : List (Step σ)} {vm : Vm σ} (act : Act σ) (hpast : Steps vm₀ past vm)
    (ha : act.Allowed past vm) : Steps vm₀ (past ++ [⟨vm, act⟩]) (act.perform vm)

/-- The moves of steps, in order. -/
def movesOf (steps : List (Step σ)) : List (Move σ) := steps.flatMap fun s => s.act.moves s.before

@[simp] theorem movesOf_nil : movesOf ([] : List (Step σ)) = [] := rfl

theorem movesOf_append (past later : List (Step σ)) :
    movesOf (past ++ later) = movesOf past ++ movesOf later := List.flatMap_append

@[simp] theorem movesOf_singleton (vm : Vm σ) (act : Act σ) :
    movesOf [⟨vm, act⟩] = act.moves vm := by
  simp [movesOf]

namespace Steps

variable {vm₀ vm₁ vm : Vm σ} {past later : List (Step σ)}

theorem single {act : Act σ} (ha : act.Allowed [] vm) : Steps vm [⟨vm, act⟩] (act.perform vm) :=
  snoc act refl ha

theorem note (vm : Vm σ) {e : Event} (he : e.IsNote) : Steps vm [⟨vm, .note e⟩] (vm.record e) :=
  single he

theorem closeScope (vm : Vm σ) (id : ScopeId) :
    Steps vm [⟨vm, .closeScope id⟩] (vm.closeScope id) :=
  snoc (.closeScope id) refl trivial

/-- A history goes on. -/
theorem trans (hpast : Steps vm₀ past vm₁) (hlater : Steps vm₁ later vm) :
    Steps vm₀ (past ++ later) vm := by
  induction hlater with
  | refl => simpa using hpast
  | snoc act _ ha ih =>
    rw [← List.append_assoc]
    exact ih.snoc act (ha.append past)

/-- Every act of a history was allowed at its moment. -/
theorem allowed_at {steps : List (Step σ)} (h : Steps vm₀ steps vm) {before : Vm σ} {act : Act σ}
    (hsteps : steps = past ++ ⟨before, act⟩ :: later) : act.Allowed past before := by
  induction h generalizing later with
  | refl => simp at hsteps
  | snoc last _ ha ih =>
    rcases List.eq_nil_or_concat later with rfl | ⟨rest, step, rfl⟩
    · obtain ⟨rfl, hlast⟩ := List.append_inj' hsteps rfl
      cases hlast
      exact ha
    · rw [List.concat_eq_append, ← List.cons_append, ← List.append_assoc] at hsteps
      exact ih (List.append_inj' hsteps rfl).1

/-- The machine that makes a step of a history is what the steps before lead to. -/
theorem reached_at {steps : List (Step σ)} (h : Steps vm₀ steps vm) {s : Step σ}
    (hsteps : steps = past ++ s :: later) : Steps vm₀ past s.before := by
  induction h generalizing later with
  | refl => simp at hsteps
  | snoc last hpast _ ih =>
    rcases List.eq_nil_or_concat later with rfl | ⟨rest, step, rfl⟩
    · obtain ⟨rfl, hlast⟩ := List.append_inj' hsteps rfl
      cases hlast
      exact hpast
    · rw [List.concat_eq_append, ← List.cons_append, ← List.append_assoc] at hsteps
      exact ih (List.append_inj' hsteps rfl).1

/-- The holdings at the end of a history are those after its moves. -/
theorem holdings_eq (h : Steps vm₀ past vm) : vm.holdings = vm₀.holdings.after (movesOf past) := by
  induction h with
  | refl => rfl
  | snoc act _ ha ih =>
    rw [Act.holdings_perform ha, ih, movesOf_append, movesOf_singleton, Holdings.after_append]

theorem table_eq (h : Steps vm₀ past vm) :
    vm.table = vm₀.table.replay (vm₀.holdings.changes (movesOf past)) := by
  rw [← Vm.table_holdings, h.holdings_eq, Holdings.table_after, Vm.table_holdings]

theorem addressable (h : Steps vm₀ past vm) (hf : vm.table.Addressable) :
    vm₀.table.Addressable := by
  rw [← Vm.table_holdings, h.holdings_eq] at hf
  exact Holdings.addressable_of_after hf

theorem sound (h : Steps vm₀ past vm) (hs : vm₀.table.Sound) (hf : vm.table.Addressable) :
    vm.table.Sound := by
  rw [h.table_eq] at hf ⊢
  exact Handle.Table.sound_replay hs hf

/-- The machine may make the moves of a history. -/
theorem moves (h : Steps vm₀ past vm) (hs : vm₀.table.Sound) (hf : vm.table.Addressable) :
    Moves vm₀.holdings (movesOf past) := by
  induction h with
  | refl => trivial
  | snoc act hpast ha ih =>
    have hf' := Act.addressable ha hf
    rw [movesOf_append, movesOf_singleton, Moves.append, ← hpast.holdings_eq]
    exact ⟨ih hf', Act.moves_perform ha (hpast.sound hs hf') hf⟩

/-- **Invariants of histories.** What every allowed move keeps, holds at the end of a history if
it holds at its beginning. -/
theorem inv {I : Holdings σ → Prop} (h : Steps vm₀ past vm) (hs : vm₀.table.Sound)
    (hf : vm.table.Addressable)
    (hstep : ∀ y m, y.table.Sound → Move.Allowed y m → (m.apply y).table.Addressable → I y →
      I (m.apply y)) (hi : I vm₀.holdings) : I vm.holdings := by
  rw [h.holdings_eq]
  rw [← Vm.table_holdings, h.holdings_eq] at hf
  exact (h.moves hs (by rwa [← Vm.table_holdings, h.holdings_eq])).inv hs hf hstep hi

/-- A table that is addressable at the end of a history was so all along. -/
theorem addressable_at {mid : Vm σ} (hmid : Steps vm₀ past mid)
    (h : Steps vm₀ (past ++ later) vm) (hf : vm.table.Addressable) : mid.table.Addressable := by
  rw [← Vm.table_holdings, h.holdings_eq, movesOf_append, Holdings.after_append,
    ← hmid.holdings_eq] at hf
  exact Holdings.addressable_of_after hf

/-- From a moment of a history on, its later moves lead to its end. -/
theorem rest {mid : Vm σ} (hs : vm₀.table.Sound) (hmid : Steps vm₀ past mid)
    (h : Steps vm₀ (past ++ later) vm) (hf : vm.table.Addressable) :
    vm.holdings = mid.holdings.after (movesOf later) ∧ Moves mid.holdings (movesOf later) ∧
      mid.table.Sound := by
  have hend : vm.holdings = mid.holdings.after (movesOf later) := by
    rw [h.holdings_eq, movesOf_append, Holdings.after_append, ← hmid.holdings_eq]
  have hmoves := h.moves hs hf
  rw [movesOf_append, Moves.append, ← hmid.holdings_eq] at hmoves
  exact ⟨hend, hmoves.2, hmid.sound hs (hmid.addressable_at h hf)⟩

end Steps

/-! ### Operations in a row -/

/-- Whether the act is an operation that a program may request: one of the host, or one through
an open scope. -/
def Act.requested (vm : Vm σ) : Act σ → Bool
  | within id _ => vm.scopes.contains id
  | host _ => true
  | _ => false

theorem Act.allowed_of_requested {past : List (Step σ)} {vm : Vm σ} {act : Act σ}
    (ha : act.requested vm = true) : act.Allowed past vm := by
  cases act with
  | within id op => exact Option.isSome_iff_exists.mp ha
  | host op => trivial
  | _ => cases ha

namespace Vm

/-- The machine after acts, in order. -/
def performAll (vm : Vm σ) : List (Act σ) → Vm σ
  | [] => vm
  | act :: acts => (act.perform vm).performAll acts

/-- The steps of acts, in order. -/
def stepsOf (vm : Vm σ) : List (Act σ) → List (Step σ)
  | [] => []
  | act :: acts => ⟨vm, act⟩ :: (act.perform vm).stepsOf acts

/-- Whether all acts are operations that a program may request when their turn comes. -/
def allRequested (vm : Vm σ) : List (Act σ) → Bool
  | [] => true
  | act :: acts => act.requested vm && (act.perform vm).allRequested acts

/-- Operations that are requested one after the other make a history. -/
theorem steps_performAll (vm : Vm σ) {acts : List (Act σ)} (ha : vm.allRequested acts = true) :
    Steps vm (vm.stepsOf acts) (vm.performAll acts) := by
  induction acts generalizing vm with
  | nil => exact .refl
  | cons act acts ih =>
    rw [allRequested, Bool.and_eq_true] at ha
    have hfirst : Steps vm [⟨vm, act⟩] (act.perform vm) :=
      Steps.single (Act.allowed_of_requested ha.1)
    exact hfirst.trans (ih _ ha.2)

end Vm

theorem Vm.sound_new (options : Options) (memory : σ) : (Vm.new options memory).table.Sound :=
  Handle.Table.sound_empty

end NativeBridge
