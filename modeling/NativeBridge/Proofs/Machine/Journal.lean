import NativeBridge.Proofs.Machine.Step

/-!
# Options and journal

The options of a machine never change, and its journal only grows (`Steps.extends`). Most operations
leave the reports alone too (`Vm.Quiet`). Among the events of the journal are the entries, which say
what code was entered and with what (`Vm.entries`).
-/

namespace NativeBridge

variable {σ : Type} {vm vm' vm'' : Vm σ}

/-! ### Entries -/

/-- The entry that an event is. -/
def Event.entry? : Event → Option Entry
  | entered entry => some entry
  | _ => none

namespace Vm

/-- What code the machine entered so far. -/
def entries (vm : Vm σ) : List Entry := vm.journal.toList.filterMap Event.entry?

theorem entries_record (vm : Vm σ) (e : Event) :
    (vm.record e).entries = vm.entries ++ e.entry?.toList := by
  cases he : e.entry? <;> simp [entries, record, he]

theorem entries_record_of_entry?_eq_none (vm : Vm σ) {e : Event} (he : e.entry? = none) :
    (vm.record e).entries = vm.entries := by
  rw [entries_record, he, Option.toList_none, List.append_nil]

/-- What a push adds to the journal are no entries. -/
theorem journal_push (vm : Vm σ) (owner : Handle) (r : Report) :
    ∃ es, (vm.push owner r).journal.toList = vm.journal.toList ++ es ∧
      ∀ e ∈ es, e.entry? = none := by
  cases hlog : vm.options.logDiagnostics <;> cases hold : vm.diagnostics.evicted? owner
  · exact ⟨[], by simp [push, hlog, hold], by simp⟩
  · next old => exact ⟨[.reportDropped owner old], by simp [push, hlog, hold, record], by
      simp [Event.entry?]⟩
  · exact ⟨[.reported r], by simp [push, hlog, hold, record], by simp [Event.entry?]⟩
  · next old => exact ⟨[.reported r, .reportDropped owner old], by
      simp [push, hlog, hold, record], by simp [Event.entry?]⟩

@[simp] theorem entries_push (vm : Vm σ) (owner : Handle) (r : Report) :
    (vm.push owner r).entries = vm.entries := by
  obtain ⟨es, hes, hno⟩ := vm.journal_push owner r
  rw [entries, hes, List.filterMap_append, List.filterMap_eq_nil_iff.mpr hno, List.append_nil,
    entries]

@[simp] theorem options_push (vm : Vm σ) (owner : Handle) (r : Report) :
    (vm.push owner r).options = vm.options := by
  cases hlog : vm.options.logDiagnostics <;> cases hold : vm.diagnostics.evicted? owner <;>
    simp [push, hlog, hold, record]

@[simp] theorem diagnostics_push (vm : Vm σ) (owner : Handle) (r : Report) :
    (vm.push owner r).diagnostics = vm.diagnostics.push owner r := rfl

/-! ### Machines that go on -/

/-- The options are the same, and the journal goes on. -/
structure Extends (vm vm' : Vm σ) : Prop where
  options : vm'.options = vm.options
  journal : vm.journal.toList <+: vm'.journal.toList

namespace Extends

theorem of_eq (ho : vm'.options = vm.options) (hj : vm'.journal = vm.journal) : vm.Extends vm' :=
  ⟨ho, hj ▸ List.prefix_rfl⟩

theorem refl (vm : Vm σ) : vm.Extends vm := of_eq rfl rfl

theorem trans (h : vm.Extends vm') (h' : vm'.Extends vm'') : vm.Extends vm'' :=
  ⟨h'.options.trans h.options, h.journal.trans h'.journal⟩

theorem of_push {e : Event} (ho : vm'.options = vm.options)
    (hj : vm'.journal = vm.journal.push e) : vm.Extends vm' := by
  refine ⟨ho, ?_⟩
  simp [hj]

theorem record (h : vm.Extends vm') (e : Event) : vm.Extends (vm'.record e) :=
  h.trans (of_push rfl rfl)

theorem push (h : vm.Extends vm') (owner : Handle) (r : Report) :
    vm.Extends (vm'.push owner r) := by
  obtain ⟨es, hes, -⟩ := vm'.journal_push owner r
  have hjournal : vm'.journal.toList <+: (vm'.push owner r).journal.toList :=
    hes ▸ List.prefix_append _ es
  exact ⟨(vm'.options_push owner r).trans h.options, h.journal.trans hjournal⟩

end Extends

/-- The machine goes on, and the reports are as they were. -/
structure Quiet (vm vm' : Vm σ) : Prop extends Extends vm vm' where
  diagnostics : vm'.diagnostics = vm.diagnostics

namespace Quiet

theorem of_eq (ho : vm'.options = vm.options) (hj : vm'.journal = vm.journal)
    (hd : vm'.diagnostics = vm.diagnostics) : vm.Quiet vm' := ⟨.of_eq ho hj, hd⟩

theorem refl (vm : Vm σ) : vm.Quiet vm := of_eq rfl rfl rfl

theorem trans (h : vm.Quiet vm') (h' : vm'.Quiet vm'') : vm.Quiet vm'' :=
  ⟨h.toExtends.trans h'.toExtends, h'.diagnostics.trans h.diagnostics⟩

theorem record (h : vm.Quiet vm') (e : Event) : vm.Quiet (vm'.record e) :=
  ⟨h.toExtends.record e, h.diagnostics⟩

end Quiet

/-! ### Operations that are quiet -/

/-- Releases change the table only. -/
theorem releaseAll_eq (vm : Vm σ) (hs : List Handle) :
    (vm.releaseAll hs).2 = { vm with table := (vm.releaseAll hs).2.table } := by
  induction hs generalizing vm with
  | nil => rfl
  | cons h hs ih =>
    have hrelease : ∀ t, { (vm.release h).2 with table := t } = { vm with table := t } := by
      intro t
      unfold release
      split <;> rfl
    exact (ih (vm.release h).2).trans (hrelease _)

/-- What a scope mints changes the table and the scopes only. -/
theorem mint_eq (vm : Vm σ) (id : ScopeId) (v : Value) :
    (vm.mint id v).2 =
      { vm with table := (vm.mint id v).2.table, scopes := (vm.mint id v).2.scopes } := by
  cases v with
  | scalar s =>
    simp only [mint, addLocal]
    split <;> rfl
  | _ => rfl

/-- Closing a scope changes the table, the scopes and the journal only. -/
theorem closeScope_eq (vm : Vm σ) (id : ScopeId) :
    vm.closeScope id =
      { vm with
        table := (vm.closeScope id).table
        scopes := (vm.closeScope id).scopes
        journal := (vm.closeScope id).journal } := by
  unfold closeScope
  split
  · rfl
  · split
    · rfl
    · simp only [Vm.record]
      rw [releaseAll_eq]

/-- Closing a scope leaves all others as they are. -/
theorem scopes_closeScope (vm : Vm σ) (id k : ScopeId) :
    (vm.closeScope id).scopes.get? k = if k = id then none else vm.scopes.get? k := by
  unfold closeScope
  split
  · next hid =>
    split
    · next hk => rw [hk, hid]
    · rfl
  · have hreleased : ∀ (vm : Vm σ) (hs : List Handle), (vm.releaseAll hs).2.scopes = vm.scopes := by
      intro vm hs
      rw [releaseAll_eq]
    split
    · exact Dict.get?_erase _ _ _
    · exact (congrArg (Dict.get? · k) (hreleased _ _)).trans (Dict.get?_erase _ _ _)

theorem addFunction_eq (vm : Vm σ) (module : Handle) (name : String) (argc : UInt64)
    (body : Body σ) : (vm.addFunction module name argc body).2 =
      { vm with table := (vm.addFunction module name argc body).2.table } := by
  unfold addFunction
  dsimp only
  split <;> rfl

/-- Additions of functions change the table only. -/
theorem addFunctions_eq (vm : Vm σ) (module : Handle) (fs : List (String × NativeFunction σ)) :
    vm.addFunctions module fs = { vm with table := (vm.addFunctions module fs).table } := by
  unfold addFunctions
  induction fs generalizing vm with
  | nil => rfl
  | cons f fs ih =>
    rw [List.foldl_cons, addFunction_eq]
    exact ih _

theorem quiet_mint (vm : Vm σ) (id : ScopeId) (v : Value) : vm.Quiet (vm.mint id v).2 :=
  .of_eq (by rw [mint_eq]) (by rw [mint_eq]) (by rw [mint_eq])

theorem quiet_closeScope (vm : Vm σ) (id : ScopeId) : vm.Quiet (vm.closeScope id) := by
  unfold closeScope
  split
  · exact .refl vm
  · split
    · exact .of_eq rfl rfl rfl
    · refine .record (.of_eq ?_ ?_ ?_) _ <;> rw [releaseAll_eq]

theorem quiet_write {b v : Handle} {i : UInt64} (hw : vm.write b i v = .ok vm') :
    vm.Quiet vm' := by
  obtain ⟨blk, c, -, -, -, rfl⟩ := store_eq_ok.mp (write_eq_ok.mp hw).2
  exact .of_eq rfl rfl rfl

theorem quiet_protect {b : Handle} {i : UInt64} {p : Heap.Protection}
    (hp : vm.protect b i p = .ok vm') : vm.Quiet vm' := by
  unfold protect at hp
  split at hp
  · cases hp
  · cases hp
    exact .of_eq rfl rfl rfl

theorem quiet_keepOnError {o : Except BridgeError (Vm σ)}
    (ho : ∀ vm', o = .ok vm' → vm.Quiet vm') : vm.Quiet (vm.keepOnError o).2 := by
  cases o with
  | error e => exact .refl vm
  | ok vm' => exact ho vm' rfl

theorem quiet_defineModule (vm : Vm σ) (name : String) : vm.Quiet (vm.defineModule name).2 := by
  have hcreate : vm.Quiet (vm.createModule name).2 := .of_eq rfl rfl rfl
  unfold defineModule
  split
  · exact .refl vm
  · split
    · exact .refl vm
    · exact hcreate.record _

theorem quiet_defineScript (vm : Vm σ) (module : Handle) (name : String) (argc : UInt64)
    (body : ScriptBody σ) : vm.Quiet (vm.defineScript module name argc body).2 := by
  unfold defineScript
  split
  · exact .refl vm
  · split
    · exact .refl vm
    · split
      · exact .refl vm
      · refine .of_eq ?_ ?_ ?_ <;> rw [addFunction_eq]

theorem quiet_attachLibrary (vm : Vm σ) (name : String)
    (library : FunctionTable (NativeFunction σ)) (rejected : ℕ) :
    vm.Quiet (vm.attachLibrary name library rejected).2 := by
  have hattach : ∀ (vm' : Vm σ) (module : Handle), vm.Quiet vm' →
      vm.Quiet (vm'.attach name module library rejected).2 := by
    refine fun vm' module h => .record (h.trans (.of_eq ?_ ?_ ?_)) _ <;> rw [addFunctions_eq]
  unfold attachLibrary
  split
  · exact hattach _ _ (.of_eq rfl rfl rfl)
  · split
    · exact .refl vm
    · split
      · exact .refl vm
      · exact hattach _ _ (.refl vm)

/-! ### Operations that may report -/

theorem extends_alloc (vm : Vm σ) (site : Site) (size : UInt64) :
    vm.Extends (vm.alloc site size).2 := by
  unfold alloc
  split
  · exact .of_push rfl rfl
  · exact .push (.refl vm) _ _

theorem extends_free (vm : Vm σ) (site : Site) (h : Handle) : vm.Extends (vm.free site h) := by
  unfold free
  split
  · exact .push (.refl vm) _ _
  · exact .of_push rfl rfl

theorem extends_resize (vm : Vm σ) (site : Site) (h : Handle) (size : UInt64) :
    vm.Extends (vm.resize site h size).2 := by
  unfold resize
  split
  · split
    · exact .refl vm
    · exact vm.extends_alloc site size
  · split
    · exact vm.extends_free site h
    · unfold resizeBlock
      split
      · exact .push (.refl vm) _ _
      · split
        · exact .push (.refl vm) _ _
        · exact .of_push rfl rfl

end Vm

/-- Reading a cell mints a scalar, or it does nothing. -/
theorem ScopeOp.quiet_read (vm : Vm σ) (id : ScopeId) (scope : Scope) (block : Handle)
    (offset : UInt64) : vm.Quiet ((ScopeOp.read block offset).perform vm id scope).2 := by
  simp only [perform]
  split
  · exact .refl vm
  · exact .refl vm
  · exact vm.quiet_mint id _

theorem ScopeOp.extends_perform (vm : Vm σ) (id : ScopeId) (scope : Scope) (op : ScopeOp) :
    vm.Extends (op.perform vm id scope).2 := by
  cases op with
  | mint s => exact (vm.quiet_mint id _).toExtends
  | alloc size => exact vm.extends_alloc _ size
  | resize block size => exact vm.extends_resize _ block size
  | free block => exact vm.extends_free _ block
  | read block offset => exact (quiet_read vm id scope block offset).toExtends
  | write block offset value =>
    exact (Vm.quiet_keepOnError fun _ hw => Vm.quiet_write hw).toExtends
  | _ => exact .of_eq rfl rfl

theorem HostOp.quiet_perform (vm : Vm σ) (op : HostOp) : vm.Quiet (op.perform vm).2 := by
  cases op with
  | defineModule name => exact vm.quiet_defineModule name
  | protect block offset p => exact Vm.quiet_keepOnError fun _ hp => Vm.quiet_protect hp
  | release h =>
    simp only [perform, Vm.release]
    split <;> exact .of_eq rfl rfl rfl
  | _ => exact .refl vm

theorem Act.extends_perform (vm : Vm σ) (act : Act σ) : vm.Extends (act.perform vm) := by
  cases act with
  | within id op =>
    simp only [perform]
    split
    · exact op.extends_perform vm id _
    · exact .refl vm
  | host op => exact (op.quiet_perform vm).toExtends
  | closeScope id => exact (vm.quiet_closeScope id).toExtends
  | deliver id value => exact (vm.quiet_mint id value).toExtends
  | report id r =>
    simp only [perform]
    split
    · exact .push (.refl vm) _ r
    · exact .refl vm
  | reportInvoked r => exact .push (.refl vm) _ r
  | defineScript module name argc body =>
    exact (vm.quiet_defineScript module name argc body).toExtends
  | attachLibrary name library rejected =>
    exact (vm.quiet_attachLibrary name library rejected).toExtends
  | note e => exact .record (.refl vm) e
  | _ => exact .of_eq rfl rfl

/-- **Machines go on.** In a history the options stay, and the journal only grows. -/
theorem Steps.extends {vm₀ : Vm σ} {steps : List (Step σ)} (h : Steps vm₀ steps vm) :
    vm₀.Extends vm := by
  induction h with
  | refl => exact .refl vm₀
  | snoc act _ _ ih => exact ih.trans (act.extends_perform _)

namespace Vm

theorem Extends.entries (h : vm.Extends vm') : vm.entries <+: vm'.entries :=
  h.journal.filterMap _

theorem entries_closeScope (vm : Vm σ) (id : ScopeId) :
    (vm.closeScope id).entries = vm.entries := by
  unfold closeScope
  split
  · rfl
  · split
    · rfl
    · refine (entries_record_of_entry?_eq_none _ rfl).trans ?_
      rw [releaseAll_eq]
      rfl

end Vm

end NativeBridge
