import NativeBridge.Proofs.Machine.Handlers

/-!
# Code that does not look at the journal

The journal is written for whoever watches the machine. A program may ask for it as it may ask for
anything that the host can ask for, but most programs do not. A program is *blind* if neither it nor
any code that it registers asks for events, and a machine is blind if all its functions and handlers
are. A blind machine stays so, unless code is registered that is not (`Vm.Blind.of_act`).
-/

namespace NativeBridge

open Handle (Change)

/-! ### Contents of tables -/

namespace Handle

variable {α : Type}

/-- What a change stores is of a kind. -/
def Change.Stores (P : α → Prop) : Change α → Prop
  | insert a => P a
  | set _ a => P a
  | remove _ => True

namespace Table

/-- What the slots of the table hold is of a kind. -/
def Holds (P : α → Prop) (t : Table α) : Prop := ∀ s ∈ t.slots, ∀ a, s.content = some a → P a

namespace Holds

variable {P : α → Prop} {t : Table α}

theorem empty : (Table.empty : Table α).Holds P := fun s hs => by simp [Table.empty] at hs

theorem of_get? (ht : t.Holds P) {h : Handle} {a : α} (hg : t.get? h = some a) : P a :=
  ht _ (Array.mem_of_getElem? (slot_of_get? hg)) a rfl

/-- One slot is changed. -/
theorem setIfInBounds (ht : t.Holds P) {s : Slot α} (hs : ∀ a, s.content = some a → P a) (i : ℕ)
    (free : List UInt32) (live : ℕ) :
    (⟨t.slots.setIfInBounds i s, free, live⟩ : Table α).Holds P := by
  intro s' hs'
  rcases Array.mem_or_eq_of_mem_setIfInBounds hs' with hmem | rfl
  · exact ht s' hmem
  · exact hs

theorem insert (ht : t.Holds P) {a : α} (ha : P a) : (t.insert a).2.Holds P := by
  unfold Table.insert
  split
  · intro s hs b hb
    rcases Array.mem_push.mp hs with hmem | rfl
    · exact ht s hmem b hb
    · exact Option.some.inj hb ▸ ha
  · exact ht.setIfInBounds (by rintro b ⟨⟩; exact ha) _ _ _

theorem set (ht : t.Holds P) (h : Handle) {a : α} (ha : P a) : (t.set h a).Holds P := by
  unfold Table.set
  split
  · exact ht.setIfInBounds (by rintro b ⟨⟩; exact ha) _ _ _
  · exact ht

theorem remove (ht : t.Holds P) (h : Handle) : (t.remove h).Holds P := by
  unfold Table.remove
  split
  · dsimp only
    split <;> exact ht.setIfInBounds (fun b hb => by cases hb) _ _ _
  · exact ht

theorem replay (ht : t.Holds P) {cs : List (Change α)} (hcs : ∀ c ∈ cs, c.Stores P) :
    (t.replay cs).Holds P := by
  induction cs generalizing t with
  | nil => exact ht
  | cons c cs ih =>
    have hc := hcs c List.mem_cons_self
    refine ih ?_ fun c' hc' => hcs c' (List.mem_cons_of_mem _ hc')
    cases c with
    | insert a => exact ht.insert hc
    | set h a => exact ht.set h hc
    | remove h => exact ht.remove h

end Holds

end Table

end Handle

variable {σ : Type}

/-! ### Blind code -/

/-- The program does not ask for events, and neither does any code that it registers or loads. -/
def Program.Blind {r : Role} : Program σ r → Prop
  | .done _ => True
  | .within _ _ next => ∀ reply, (next reply).Blind
  | .host op next => (∀ place, op ≠ .eventsFrom place) ∧ ∀ reply, (next reply).Blind
  | .call _ _ _ _ next => ∀ result, (next result).Blind
  | .interrupt _ _ _ _ next => ∀ h, (next h).Blind
  | .invoke _ _ next => ∀ result, (next result).Blind
  | .openFunction _ next => ∀ result, (next result).Blind
  | .openModule _ next => ∀ result, (next result).Blind
  | .close _ next => next.Blind
  | .defineScript _ _ _ body next => (∀ args, (body args).Blind) ∧ ∀ result, (next result).Blind
  | .loadLibrary _ loader next => loader.Blind ∧ ∀ result, (next result).Blind
  | .register _ _ body next =>
    (∀ id args, (body id args).Blind) ∧ ∀ accepted, (next accepted).Blind
  | .addHandler handler next =>
    (∀ id code opcode args, (handler id code opcode args).Blind) ∧ next.Blind
  | .recall next => ∀ memory, (next memory).Blind
  | .remember _ next => next.Blind

/-- No run of the body asks for events. -/
def Body.Blind : Body σ → Prop
  | native body => ∀ id args, (body id args).Blind
  | script body => ∀ args, (body args).Blind

/-- The handler does not ask for events. -/
def Handler.Blind (handler : Handler σ) : Prop :=
  ∀ id code opcode args, (handler id code opcode args).Blind

/-- If the object is a function, it is blind. -/
def Object.Blind : Object σ → Prop
  | function f => f.body.Blind
  | _ => True

/-- All functions that were registered are blind. -/
def Registrar.Blind (r : Registrar (NativeFunction σ)) : Prop :=
  ∀ f ∈ r.entries, (Body.native f.2.body).Blind

theorem Registrar.blind_new (library : String) :
    (new library : Registrar (NativeFunction σ)).Blind :=
  fun _ hf => by cases hf

theorem Registrar.Blind.insert {r : Registrar (NativeFunction σ)} (hr : r.Blind) (name : String)
    {f : NativeFunction σ} (hf : (Body.native f.body).Blind) : (r.insert name f).Blind := by
  unfold Registrar.insert
  split
  · intro g hg
    rcases List.mem_append.mp hg with hmem | hmem
    · exact hr g hmem
    · rw [List.mem_singleton.mp hmem]
      exact hf
  · exact hr

/-- All functions and handlers of the machine are blind. -/
structure Vm.Blind (vm : Vm σ) : Prop where
  objects : vm.table.Holds Object.Blind
  handlers : ∀ handler ∈ vm.handlers, handler.Blind

theorem Vm.blind_new (options : Options) (memory : σ) : (new options memory).Blind where
  objects := .empty
  handlers := fun _ hmem => by cases hmem

theorem Vm.Blind.of_object? {vm : Vm σ} (h : vm.Blind) {f : Handle} {callee : Function σ}
    (hf : vm.object? f = some (.function callee)) : callee.body.Blind :=
  h.objects.of_get? hf

/-! ### Blind acts -/

/-- A function that the move adds is blind. -/
def Move.Blind : Move σ → Prop
  | addFunction _ _ _ body => body.Blind
  | _ => True

theorem Move.stores_changes {m : Move σ} (hm : m.Blind) (t : Handle.Table (Object σ)) :
    ∀ c ∈ m.changes t, c.Stores Object.Blind := by
  have hedit : ∀ (h : Handle) (f : Heap.Block → Heap.Block), ∀ c ∈ edit t h f,
      c.Stores Object.Blind := by
    intro h f c hc
    unfold edit at hc
    split at hc
    · rw [List.mem_singleton.mp hc]
      trivial
    · cases hc
  cases m with
  | resize h size => exact hedit h _
  | write h offset value => exact hedit h _
  | protect h offset p => exact hedit h _
  | createModule name =>
    simp [changes, Change.Stores, Object.Blind, initFunction, Body.Blind, Program.Blind]
  | addFunction module name argc body =>
    intro c hc
    simp only [changes, List.mem_cons] at hc
    rcases hc with rfl | hc
    · exact hm
    · split at hc
      · rw [List.mem_singleton.mp hc]
        trivial
      · cases hc
  | _ => simp [changes, Change.Stores, Object.Blind]

theorem Holdings.holds_after {x : Holdings σ} {ms : List (Move σ)} (hms : ∀ m ∈ ms, m.Blind)
    (hx : x.table.Holds Object.Blind) : (x.after ms).table.Holds Object.Blind := by
  induction ms generalizing x with
  | nil => exact hx
  | cons m ms ih =>
    refine ih (fun m' hm' => hms m' (List.mem_cons_of_mem _ hm')) ?_
    exact hx.replay (Move.stores_changes (hms m List.mem_cons_self) _)

/-- The code that the act registers is blind. -/
def Act.Blind : Act σ → Prop
  | defineScript _ _ _ body => (Body.script body).Blind
  | attachLibrary _ library _ => ∀ f ∈ library.entries, (Body.native f.2.body).Blind
  | addHandler handler => handler.Blind
  | _ => True

theorem Act.blind_of_mem_moves {vm : Vm σ} {act : Act σ} (hact : act.Blind) {m : Move σ}
    (hm : m ∈ act.moves vm) : m.Blind := by
  cases act with
  | defineScript module name argc body =>
    simp only [moves, Vm.defineScriptMoves] at hm
    split at hm
    · rw [List.mem_singleton.mp hm]
      exact hact
    · cases hm
  | attachLibrary name library rejected =>
    have hadded : ∀ module, ∀ m ∈ library.entries.map (Vm.added module), m.Blind := by
      intro module m hm
      obtain ⟨f, hf, rfl⟩ := List.mem_map.mp hm
      exact hact f hf
    simp only [moves, Vm.attachMoves] at hm
    split at hm
    · rcases List.mem_cons.mp hm with rfl | hm
      · trivial
      · exact hadded _ m hm
    · split at hm
      · cases hm
      · split at hm
        · cases hm
        · exact hadded _ m hm
  | _ =>
    -- no other act adds functions
    have hcause := Act.causedBy_of_mem hm
    cases m with
    | addFunction module name argc body =>
      rcases hcause with ⟨_, hact⟩ | ⟨_, _, _, hact, -⟩ <;> cases hact
    | _ => trivial

/-- **Blind machines.** What a machine does keeps it blind, unless it registers code that is not. -/
theorem Vm.Blind.of_act {vm vm' : Vm σ} (h : vm.Blind) (act : Act σ) (hact : act.Blind)
    (hholdings : vm'.holdings = vm.holdings.after (act.moves vm))
    (hhandlers : vm'.handlers = vm.handlers) : vm'.Blind where
  objects := by
    rw [← table_holdings, hholdings]
    exact Holdings.holds_after (fun m hm => act.blind_of_mem_moves hact hm) h.objects
  handlers := hhandlers ▸ h.handlers

/-! ### Operations on blind machines -/

namespace Vm.Blind

variable {vm : Vm σ}

theorem of_eq {vm' : Vm σ} (h : vm.Blind) (ht : vm'.table = vm.table)
    (hh : vm'.handlers = vm.handlers) : vm'.Blind :=
  ⟨ht ▸ h.objects, hh ▸ h.handlers⟩

theorem push (h : vm.Blind) (owner : Handle) (r : Report) : (vm.push owner r).Blind :=
  h.of_eq (congrArg Holdings.table (vm.holdings_push owner r)) (vm.handlers_push owner r)

theorem mint (h : vm.Blind) (id : ScopeId) (v : Value) : (vm.mint id v).2.Blind :=
  h.of_act (.deliver id v) trivial (vm.holdings_mint id v) (by rw [mint_eq])

theorem closeScope (h : vm.Blind) (id : ScopeId) : (vm.closeScope id).Blind :=
  h.of_act (.closeScope id) trivial (vm.holdings_closeScope id) (by rw [closeScope_eq])

theorem closeScopes (h : vm.Blind) (ids : List ScopeId) : (vm.closeScopes ids).Blind := by
  unfold Vm.closeScopes
  induction ids generalizing vm with
  | nil => exact h
  | cons id ids ih => exact ih (h.closeScope id)

theorem scopeOp (h : vm.Blind) (id : ScopeId) (scope : Scope) (op : ScopeOp) :
    (op.perform vm id scope).2.Blind :=
  h.of_act (.within id op) trivial (op.holdings_perform vm id scope)
    (op.handlers_perform vm id scope)

theorem hostOp (h : vm.Blind) (op : HostOp) : (op.perform vm).2.Blind :=
  h.of_act (.host op) trivial (op.holdings_perform vm) (op.handlers_perform vm)

theorem defineScript (h : vm.Blind) (module : Handle) (name : String) (argc : UInt64)
    {body : ScriptBody σ} (hbody : ∀ args, (body args).Blind) :
    (vm.defineScript module name argc body).2.Blind :=
  h.of_act (.defineScript module name argc body) hbody
    (vm.holdings_defineScript module name argc body)
    (vm.handlers_defineScript module name argc body)

theorem attachLibrary (h : vm.Blind) (name : String)
    (library : FunctionTable (NativeFunction σ))
    (hlibrary : ∀ f ∈ library.entries, (Body.native f.2.body).Blind) (rejected : ℕ) :
    (vm.attachLibrary name library rejected).2.Blind :=
  h.of_act (.attachLibrary name library rejected) hlibrary
    (vm.holdings_attachLibrary name library rejected)
    (vm.handlers_attachLibrary name library rejected)

end Vm.Blind

end NativeBridge
