import NativeBridge.Proofs.Encoding
import NativeBridge.Proofs.Machine.Journal

/-!
# The heap log

The log of a machine says when a block is allocated, resized or freed, and of what size it was and
is. These events of the journal are the *heap log* (`Vm.heapLog`).

Each move that changes blocks or their sizes tells one event (`Move.event?`), and no other move
tells any. What an act adds to the heap log is what its moves tell (`Act.heapLog_perform`), so that
the heap log of a history is what all its moves tell (`Steps.heapLog_eq`). Only operations through
scopes tell something, and only if they succeed (`Step.told?`); no act tells more than one event.
-/

namespace NativeBridge

variable {σ : Type} {vm vm' : Vm σ}

/-! ### Events of the heap log -/

/-- A number as the content of a field determines the number. -/
theorem Field.nat_inj {m n : ℕ} : nat m = nat n ↔ m = n := by
  refine ⟨fun hfield => ?_, congrArg nat⟩
  have hrepr : m.repr = n.repr := Field.text.inj hfield
  refine Handle.toDigits_inj.mp ?_
  rw [← Nat.toList_repr, ← Nat.toList_repr, hrepr]

/-- A handle as the content of a field determines the handle. -/
theorem Field.handle_inj {h k : Handle} : handle h = handle k ↔ h = k :=
  ⟨fun hfield => Handle.text_inj.mp (Field.text.inj hfield), congrArg handle⟩

namespace Event

/-- The messages of the heap log. -/
def heapMessages : List String := ["heap alloc", "heap resize", "heap free"]

/-- Whether the log says about an event that the heap changed. -/
def onHeap (e : Event) : Bool :=
  e.logLine?.any fun line => line.level = .debug && heapMessages.contains line.message

/-- Blocks are all that the heap log is about. -/
theorem onHeap_eq (e : Event) :
    e.onHeap =
      match e with
      | blockAllocated _ _ => true
      | blockResized _ _ _ => true
      | blockFreed _ _ => true
      | _ => false := by
  cases e <;> simp [onHeap, logLine?, heapMessages]

/-- What is recorded apart from the operations is not on the heap log. -/
theorem IsNote.onHeap_eq_false {e : Event} (he : e.IsNote) : e.onHeap = false := by
  rw [onHeap_eq]
  split
  · cases he
  · cases he
  · cases he
  · rfl

/-- A line of the heap log determines its event. -/
theorem eq_of_logLine?_eq {e e' : Event} (he : e.onHeap = true)
    (hline : e'.logLine? = e.logLine?) : e' = e := by
  -- the line says that the other event is on the heap log as well
  have he' : e'.onHeap = true := by rwa [onHeap, hline]
  rw [onHeap_eq] at he he'
  cases e <;> cases he <;> cases e' <;> cases he' <;>
    simp_all [logLine?, Field.handle_inj, Field.nat_inj, UInt64.toNat_inj]

end Event

namespace Vm

/-- The events of the heap log, the earliest in front. -/
def heapLog (vm : Vm σ) : List Event := vm.journal.toList.filter Event.onHeap

@[simp] theorem heapLog_new (options : Options) (memory : σ) : (new options memory).heapLog = [] :=
  rfl

theorem heapLog_of_journal_eq (hj : vm'.journal = vm.journal) : vm'.heapLog = vm.heapLog := by
  rw [heapLog, hj, heapLog]

theorem heapLog_record (vm : Vm σ) {e : Event} (he : e.onHeap = true) :
    (vm.record e).heapLog = vm.heapLog ++ [e] := by
  simp [heapLog, record, he]

theorem heapLog_record_of_not (vm : Vm σ) {e : Event} (he : e.onHeap = false) :
    (vm.record e).heapLog = vm.heapLog := by
  simp [heapLog, record, he]

@[simp] theorem heapLog_push (vm : Vm σ) (owner : Handle) (r : Report) :
    (vm.push owner r).heapLog = vm.heapLog := by
  cases hlog : vm.options.logDiagnostics <;> cases hold : vm.diagnostics.evicted? owner <;>
    simp [heapLog, push, hlog, hold, record, Event.onHeap_eq]

@[simp] theorem heapLog_report (vm : Vm σ) (site : Site) (native : Bool) (severity : Severity)
    (message : Message) : (vm.report site native severity message).heapLog = vm.heapLog :=
  heapLog_push ..

/-! ### Operations that are not on the heap log -/

theorem heapLog_mint (vm : Vm σ) (id : ScopeId) (v : Value) :
    (vm.mint id v).2.heapLog = vm.heapLog :=
  heapLog_of_journal_eq (by rw [mint_eq])

theorem heapLog_closeScope (vm : Vm σ) (id : ScopeId) :
    (vm.closeScope id).heapLog = vm.heapLog := by
  unfold closeScope
  split
  · rfl
  · split
    · rfl
    · refine (heapLog_record_of_not _ (Event.onHeap_eq _)).trans ?_
      exact heapLog_of_journal_eq (by rw [releaseAll_eq])

theorem heapLog_keepOnError {o : Except BridgeError (Vm σ)}
    (ho : ∀ vm', o = .ok vm' → vm'.journal = vm.journal) :
    (vm.keepOnError o).2.heapLog = vm.heapLog := by
  cases o with
  | error e => rfl
  | ok vm' => exact heapLog_of_journal_eq (ho vm' rfl)

theorem journal_write {b v : Handle} {i : UInt64} (hw : vm.write b i v = .ok vm') :
    vm'.journal = vm.journal := by
  obtain ⟨blk, c, -, -, -, rfl⟩ := store_eq_ok.mp (write_eq_ok.mp hw).2
  rfl

theorem journal_protect {b : Handle} {i : UInt64} {p : Heap.Protection}
    (hp : vm.protect b i p = .ok vm') : vm'.journal = vm.journal := by
  unfold protect at hp
  split at hp <;> cases hp
  rfl

theorem heapLog_defineModule (vm : Vm σ) (name : String) :
    (vm.defineModule name).2.heapLog = vm.heapLog := by
  unfold defineModule
  split
  · rfl
  · split
    · rfl
    · exact heapLog_record_of_not _ (Event.onHeap_eq _)

theorem heapLog_defineScript (vm : Vm σ) (module : Handle) (name : String) (argc : UInt64)
    (body : ScriptBody σ) : (vm.defineScript module name argc body).2.heapLog = vm.heapLog := by
  unfold defineScript
  split
  · rfl
  · split
    · rfl
    · split
      · rfl
      · exact heapLog_of_journal_eq (by rw [addFunction_eq])

theorem heapLog_attachLibrary (vm : Vm σ) (name : String)
    (library : FunctionTable (NativeFunction σ)) (rejected : ℕ) :
    (vm.attachLibrary name library rejected).2.heapLog = vm.heapLog := by
  have hattach : ∀ (vm' : Vm σ) (module : Handle), vm'.journal = vm.journal →
      (vm'.attach name module library rejected).2.heapLog = vm.heapLog := by
    intro vm' module hj
    refine (heapLog_record_of_not _ (Event.onHeap_eq _)).trans ?_
    exact heapLog_of_journal_eq (by rw [addFunctions_eq]; exact hj)
  unfold attachLibrary
  split
  · exact hattach _ _ rfl
  · split
    · rfl
    · split
      · rfl
      · exact hattach _ _ rfl

end Vm

/-! ### What moves tell -/

/-- The moves that change blocks or their sizes. -/
def Move.OnHeap : Move σ → Prop
  | alloc _ => True
  | free _ => True
  | resize _ _ => True
  | _ => False

/-- What a move of a machine with these holdings tells. -/
def Move.event? (x : Holdings σ) : Move σ → Option Event
  | alloc size => some (.blockAllocated (x.table.insert (.block (.ofSize size))).1 size)
  | free h =>
    match x.table.get? h with
    | some (.block b) => some (.blockFreed h b.size)
    | _ => none
  | resize h size =>
    match x.table.get? h with
    | some (.block b) => some (.blockResized h b.size size)
    | _ => none
  | _ => none

theorem Move.event?_free {x : Holdings σ} {h : Handle} {b : Heap.Block}
    (hb : x.table.get? h = some (.block b)) : event? x (.free h) = some (.blockFreed h b.size) := by
  rw [event?, hb]

theorem Move.event?_resize {x : Holdings σ} {h : Handle} {b : Heap.Block}
    (hb : x.table.get? h = some (.block b)) (size : UInt64) :
    event? x (.resize h size) = some (.blockResized h b.size size) := by
  rw [event?, hb]

theorem Move.event?_eq_none (x : Holdings σ) {m : Move σ} (hm : ¬ m.OnHeap) :
    m.event? x = none := by
  cases m with
  | alloc size => exact absurd trivial hm
  | free h => exact absurd trivial hm
  | resize h size => exact absurd trivial hm
  | _ => rfl

/-- What moves tell, in order. -/
def Holdings.events (x : Holdings σ) : List (Move σ) → List Event
  | [] => []
  | m :: ms => (m.event? x).toList ++ (m.apply x).events ms

@[simp] theorem Holdings.events_nil (x : Holdings σ) : x.events [] = [] := rfl

@[simp] theorem Holdings.events_singleton (x : Holdings σ) (m : Move σ) :
    x.events [m] = (m.event? x).toList := List.append_nil _

theorem Holdings.events_append (x : Holdings σ) (ms ns : List (Move σ)) :
    x.events (ms ++ ns) = x.events ms ++ (x.after ms).events ns := by
  induction ms generalizing x with
  | nil => rfl
  | cons m ms ih => simp [events, ih]

theorem Holdings.events_eq_nil (x : Holdings σ) {ms : List (Move σ)} (hms : ∀ m ∈ ms, ¬ m.OnHeap) :
    x.events ms = [] := by
  induction ms generalizing x with
  | nil => rfl
  | cons m ms ih =>
    rw [events, Move.event?_eq_none x (hms m List.mem_cons_self),
      ih _ fun n hn => hms n (List.mem_cons_of_mem _ hn)]
    rfl

/-! ### What operations tell -/

namespace Vm

/-- What an allocation tells: nothing if it fails. -/
def toldOfAlloc (vm : Vm σ) (site : Site) (size : UInt64) : Option Event :=
  (vm.alloc site size).1.map fun block => .blockAllocated block size

/-- What the end of a block's life tells: nothing if there is no such block. -/
def toldOfFree (vm : Vm σ) (h : Handle) : Option Event :=
  (vm.block h).toOption.map fun b => .blockFreed h b.size

/-- What a resize of a block to a size that is not zero tells: nothing if it fails. -/
def toldOfResizeBlock (vm : Vm σ) (site : Site) (h : Handle) (size : UInt64) : Option Event :=
  (vm.resizeBlock site h size).1.bind fun _ =>
    (vm.block h).toOption.map fun b => .blockResized h b.size size

theorem heapLog_alloc (vm : Vm σ) (site : Site) (size : UInt64) :
    (vm.alloc site size).2.heapLog = vm.heapLog ++ (vm.toldOfAlloc site size).toList ∧
      vm.holdings.events (vm.allocMoves size) = (vm.toldOfAlloc site size).toList := by
  unfold toldOfAlloc alloc allocMoves
  split
  · exact ⟨heapLog_record _ (Event.onHeap_eq _), rfl⟩
  · simp

theorem heapLog_free (vm : Vm σ) (site : Site) (h : Handle) :
    (vm.free site h).heapLog = vm.heapLog ++ (vm.toldOfFree h).toList ∧
      vm.holdings.events (vm.freeMoves h) = (vm.toldOfFree h).toList := by
  unfold toldOfFree free freeMoves
  cases hb : vm.block h with
  | error e => simp [Except.toOption]
  | ok b =>
    refine ⟨heapLog_record _ (Event.onHeap_eq _), ?_⟩
    rw [Holdings.events_singleton, Move.event?_free (block_eq_ok.mp hb)]
    rfl

theorem heapLog_resizeBlock (vm : Vm σ) (site : Site) (h : Handle) (size : UInt64) :
    (vm.resizeBlock site h size).2.heapLog =
        vm.heapLog ++ (vm.toldOfResizeBlock site h size).toList ∧
      vm.holdings.events (vm.resizeBlockMoves h size) =
        (vm.toldOfResizeBlock site h size).toList := by
  unfold toldOfResizeBlock resizeBlock resizeBlockMoves
  cases hb : vm.block h with
  | error e => simp
  | ok b =>
    dsimp only
    split
    · simp
    · refine ⟨heapLog_record _ (Event.onHeap_eq _), ?_⟩
      rw [Holdings.events_singleton, Move.event?_resize (block_eq_ok.mp hb)]
      rfl

/-- What a resize tells. To resize a block to zero is to free it, and to resize the null handle is
to allocate. -/
def toldOfResize (vm : Vm σ) (site : Site) (h : Handle) (size : UInt64) : Option Event :=
  if size = 0 then vm.toldOfFree h
  else if h.isNull then vm.toldOfAlloc site size
  else vm.toldOfResizeBlock site h size

theorem heapLog_resize (vm : Vm σ) (site : Site) (h : Handle) (size : UInt64) :
    (vm.resize site h size).2.heapLog = vm.heapLog ++ (vm.toldOfResize site h size).toList ∧
      vm.holdings.events (vm.resizeMoves h size) = (vm.toldOfResize site h size).toList := by
  unfold toldOfResize resize resizeMoves
  by_cases hsize : size = 0
  · by_cases hnull : h.isNull = true
    · -- there is no block at the null handle
      have hnone : vm.toldOfFree h = none := by
        simp [toldOfFree, block, object?, Handle.isNull_iff.mp hnull, Except.toOption]
      simp [hsize, hnull, hnone]
    · simpa [hsize, hnull] using vm.heapLog_free site h
  · by_cases hnull : h.isNull = true
    · simpa [hsize, hnull] using vm.heapLog_alloc site size
    · simpa [hsize, hnull] using vm.heapLog_resizeBlock site h size

end Vm

/-- What an operation made at a site tells, if it succeeds. -/
def ScopeOp.told? (vm : Vm σ) (site : Site) : ScopeOp → Option Event
  | alloc size => vm.toldOfAlloc site size
  | resize block size => vm.toldOfResize site block size
  | free block => vm.toldOfFree block
  | _ => none

/-- What a step tells. -/
def Step.told? (s : Step σ) : Option Event :=
  match s.act with
  | .within id op => (s.before.scopes.get? id).bind fun scope => op.told? s.before scope.site
  | _ => none

/-! ### Acts -/

/-- The acts that may change blocks or their sizes. -/
def Act.OnHeap : Act σ → Prop
  | within _ (.alloc _) => True
  | within _ (.resize _ _) => True
  | within _ (.free _) => True
  | _ => False

theorem Move.CausedBy.onHeap {m : Move σ} {act : Act σ} (hc : m.CausedBy vm act)
    (hm : m.OnHeap) : act.OnHeap := by
  cases m with
  | alloc size => obtain ⟨id, rfl | rfl⟩ := hc <;> trivial
  | free h => obtain ⟨id, rfl | rfl⟩ := hc <;> trivial
  | resize h size =>
    obtain ⟨id, rfl⟩ := hc
    trivial
  | _ => cases hm

/-- Operations on scalars and cells, and all questions, leave the heap log as it is. -/
theorem ScopeOp.heapLog_perform_of_not_onHeap (vm : Vm σ) (id : ScopeId) (scope : Scope)
    {op : ScopeOp} (hop : ¬ (Act.within id op : Act σ).OnHeap) :
    (op.perform vm id scope).2.heapLog = vm.heapLog := by
  cases op with
  | alloc size => exact absurd trivial hop
  | resize block size => exact absurd trivial hop
  | free block => exact absurd trivial hop
  | mint s => exact vm.heapLog_mint id _
  | read block offset =>
    simp only [perform]
    split
    · rfl
    · rfl
    · exact vm.heapLog_mint id _
  | write block offset value => exact Vm.heapLog_keepOnError fun _ hw => Vm.journal_write hw
  | _ => rfl

theorem HostOp.heapLog_perform (vm : Vm σ) (op : HostOp) :
    (op.perform vm).2.heapLog = vm.heapLog := by
  cases op with
  | defineModule name => exact vm.heapLog_defineModule name
  | protect block offset p => exact Vm.heapLog_keepOnError fun _ hp => Vm.journal_protect hp
  | release h =>
    simp only [perform, Vm.release]
    split <;> rfl
  | _ => rfl

namespace Act

variable {past : List (Step σ)} {act : Act σ}

/-- All acts that are not on the heap leave the heap log as it is: releases, the closing of scopes,
deliveries, reports and faults among them. -/
theorem heapLog_perform_of_not_onHeap (ha : act.Allowed past vm) (hact : ¬ act.OnHeap) :
    (act.perform vm).heapLog = vm.heapLog := by
  cases act with
  | within id op =>
    obtain ⟨scope, hid⟩ := ha
    rw [perform_within hid]
    exact op.heapLog_perform_of_not_onHeap vm id scope hact
  | host op => exact op.heapLog_perform vm
  | closeScope id => exact vm.heapLog_closeScope id
  | deliver id value => exact vm.heapLog_mint id value
  | report id r =>
    obtain ⟨scope, hid, -⟩ := ha
    simp [perform, hid]
  | reportInvoked r => exact vm.heapLog_push r.module r
  | defineScript module name argc body => exact vm.heapLog_defineScript module name argc body
  | attachLibrary name library rejected => exact vm.heapLog_attachLibrary name library rejected
  | note e => exact vm.heapLog_record_of_not ha.onHeap_eq_false
  | _ => rfl

theorem told?_of_not_onHeap (vm : Vm σ) (hact : ¬ act.OnHeap) : (Step.mk vm act).told? = none := by
  cases act with
  | within id op =>
    cases op with
    | alloc size => exact absurd trivial hact
    | resize block size => exact absurd trivial hact
    | free block => exact absurd trivial hact
    | _ => exact Option.bind_fun_none _
  | _ => rfl

/-- **What acts tell.** An act adds to the heap log what it tells, and this is what its moves
tell. -/
theorem heapLog_perform (ha : act.Allowed past vm) :
    (act.perform vm).heapLog = vm.heapLog ++ (Step.mk vm act).told?.toList ∧
      vm.holdings.events (act.moves vm) = (Step.mk vm act).told?.toList := by
  by_cases hact : act.OnHeap
  · cases act with
    | within id op =>
      obtain ⟨scope, hid⟩ := ha
      have htold : (Step.mk vm (within id op)).told? = op.told? vm scope.site := by
        simp [Step.told?, hid]
      rw [perform_within hid, htold]
      cases op with
      | alloc size => exact vm.heapLog_alloc scope.site size
      | resize block size => exact vm.heapLog_resize scope.site block size
      | free block => exact vm.heapLog_free scope.site block
      | _ => cases hact
    | _ => cases hact
  · have hmoves : ∀ m ∈ act.moves vm, ¬ m.OnHeap :=
      fun m hm hon => hact ((causedBy_of_mem hm).onHeap hon)
    rw [told?_of_not_onHeap vm hact, heapLog_perform_of_not_onHeap ha hact,
      Holdings.events_eq_nil _ hmoves]
    exact ⟨(List.append_nil _).symm, rfl⟩

end Act

/-! ### Histories -/

namespace Steps

variable {vm₀ : Vm σ} {steps : List (Step σ)}

/-- The heap log of a history is what all its moves tell. -/
theorem heapLog_eq (h : Steps vm₀ steps vm) :
    vm.heapLog = vm₀.heapLog ++ vm₀.holdings.events (movesOf steps) := by
  induction h with
  | refl => exact (List.append_nil _).symm
  | snoc act hpast ha ih =>
    obtain ⟨hlog, hevents⟩ := Act.heapLog_perform ha
    rw [hlog, ← hevents, ih, movesOf_append, movesOf_singleton, Holdings.events_append,
      ← hpast.holdings_eq, List.append_assoc]

theorem heapLog_step (h : Steps vm₀ steps vm) {s : Step σ} (hs : s ∈ steps) :
    (s.act.perform s.before).heapLog = s.before.heapLog ++ s.told?.toList := by
  obtain ⟨past, later, rfl⟩ := List.append_of_mem hs
  exact (Act.heapLog_perform (h.allowed_at rfl)).1

/-- Acts tell one event at most, so that the heap log had every length up to the present one. -/
theorem exists_heapLog_eq (h : Steps vm₀ steps vm) {log : List Event}
    (hfirst : vm₀.heapLog <+: log) (hlog : log <+: vm.heapLog) :
    ∃ past later mid, steps = past ++ later ∧ Steps vm₀ past mid ∧ mid.heapLog = log := by
  induction h with
  | refl => exact ⟨[], [], vm₀, rfl, .refl, hfirst.eq_of_length_le hlog.length_le⟩
  | @snoc past vm act hpast ha ih =>
    have hnow := hpast.snoc act ha
    have hgrows := (Act.heapLog_perform ha).1
    -- either the log was already so long before, or it got this long just now
    have hcases : log <+: vm.heapLog ∨ log = (act.perform vm).heapLog := by
      rw [hgrows] at hlog ⊢
      cases htold : (Step.mk vm act).told? with
      | none => exact .inl (by simpa [htold] using hlog)
      | some e =>
        rw [htold, Option.toList_some] at hlog
        exact (List.prefix_concat_iff.mp hlog).symm
    rcases hcases with hbefore | hend
    · obtain ⟨past', later, mid, rfl, hmid, heq⟩ := ih hbefore
      exact ⟨past', _, mid, List.append_assoc .., hmid, heq⟩
    · exact ⟨_, [], _, (List.append_nil _).symm, hnow, hend.symm⟩

end Steps

end NativeBridge
