import NativeBridge.Proofs.Machine.Journal

/-!
# Queues of reports along histories

What an act does to the queues of reports is a change of one queue, or none (`Act.change`), and the
queues at the end of a history are those at its beginning after the changes of its steps
(`Steps.diagnostics_eq`).

Heap operations that fail are the ones that add reports by themselves (`ScopeOp.failure?`). The
reports of calls, of interrupts and of invocations are acts of their own.
-/

namespace NativeBridge

variable {σ : Type} {vm : Vm σ}

/-! ### Changes -/

namespace Diagnostics

/-- What is done to queues of reports at once. -/
inductive Change where
  | keep
  /-- A report is added as the owner's latest. -/
  | push (owner : Handle) (r : Report)
  /-- The owner's latest report is taken. -/
  | pop (owner : Handle)
  /-- All reports of the owner are taken. -/
  | clear (owner : Handle)

namespace Change

/-- The queues after a change. -/
def apply (d : Diagnostics) : Change → Diagnostics
  | keep => d
  | push owner r => d.push owner r
  | pop owner => d.pop owner
  | clear owner => d.clear owner

/-- Whose queue is changed. -/
def owner? : Change → Option Handle
  | keep => none
  | push owner _ => some owner
  | pop owner => some owner
  | clear owner => some owner

/-- The change that adds a report if there is one. -/
def report? (owner : Handle) : Option Report → Change
  | some r => push owner r
  | none => keep

/-- Queues of others are as they were. -/
theorem queue_apply_of_ne {c : Change} {owner : Handle} (hc : c.owner? ≠ some owner)
    (d : Diagnostics) : (c.apply d).queue owner = d.queue owner := by
  cases c with
  | keep => rfl
  | push o r => exact queue_push_of_ne d (fun e => hc (congrArg some e.symm)) r
  | pop o => exact (queue_pop d o owner).trans (if_neg fun e => hc (congrArg some e.symm))
  | clear o => exact (queue_clear d o owner).trans (if_neg fun e => hc (congrArg some e.symm))

theorem queue_foldl_of_ne {cs : List Change} {owner : Handle}
    (hcs : ∀ c ∈ cs, c.owner? ≠ some owner) (d : Diagnostics) :
    (cs.foldl apply d).queue owner = d.queue owner := by
  induction cs generalizing d with
  | nil => rfl
  | cons c cs ih =>
    rw [List.foldl_cons, ih fun c' hc' => hcs c' (List.mem_cons_of_mem _ hc')]
    exact queue_apply_of_ne (hcs c List.mem_cons_self) d

end Change

end Diagnostics

open Diagnostics (Change)

/-! ### Operations -/

namespace Vm

/-- The report on an allocation over the budget. -/
def allocFailure? (vm : Vm σ) (site : Site) (size : UInt64) : Option Report :=
  if vm.budgetAllows size then none
  else some ⟨site.module, site.function, true, .error, none,
    .allocation size vm.heap.usedSlots vm.options.maxHeapSlots⟩

/-- The report on freeing what is no block. -/
def freeFailure? (vm : Vm σ) (site : Site) (h : Handle) : Option Report :=
  match vm.block h with
  | .error e =>
    some ⟨site.module, site.function, true, vm.options.defaultSeverity, none, .badFree e⟩
  | .ok _ => none

/-- The report on resizing what is no block, or over the budget. -/
def resizeFailure? (vm : Vm σ) (site : Site) (h : Handle) (size : UInt64) : Option Report :=
  if h.isNull then if size = 0 then none else vm.allocFailure? site size
  else if size = 0 then vm.freeFailure? site h
  else
    match vm.block h with
    | .error e =>
      some ⟨site.module, site.function, true, vm.options.defaultSeverity, none, .badResize e⟩
    | .ok b =>
      if b.size < size && !vm.budgetAllows (size - b.size) then
        some ⟨site.module, site.function, true, .error, none,
          .resize h size vm.heap.usedSlots vm.options.maxHeapSlots⟩
      else none

theorem diagnostics_alloc (vm : Vm σ) (site : Site) (size : UInt64) :
    (vm.alloc site size).2.diagnostics =
      (Change.report? site.module (vm.allocFailure? site size)).apply vm.diagnostics := by
  unfold alloc allocFailure?
  split <;> rfl

theorem diagnostics_free (vm : Vm σ) (site : Site) (h : Handle) :
    (vm.free site h).diagnostics =
      (Change.report? site.module (vm.freeFailure? site h)).apply vm.diagnostics := by
  unfold free freeFailure?
  cases vm.block h <;> rfl

theorem diagnostics_resize (vm : Vm σ) (site : Site) (h : Handle) (size : UInt64) :
    (vm.resize site h size).2.diagnostics =
      (Change.report? site.module (vm.resizeFailure? site h size)).apply vm.diagnostics := by
  unfold resize resizeFailure?
  split
  · split
    · rfl
    · exact vm.diagnostics_alloc site size
  · split
    · exact vm.diagnostics_free site h
    · unfold resizeBlock
      cases vm.block h with
      | error e => rfl
      | ok b =>
        dsimp only
        split <;> rfl

end Vm

/-- The report of a heap operation that fails. -/
def ScopeOp.failure? (vm : Vm σ) (scope : Scope) : ScopeOp → Option Report
  | alloc size => vm.allocFailure? scope.site size
  | resize block size => vm.resizeFailure? scope.site block size
  | free block => vm.freeFailure? scope.site block
  | _ => none

/-- What an operation does to the queues. -/
def ScopeOp.change (vm : Vm σ) (scope : Scope) : ScopeOp → Change
  | takeReport => .pop scope.module
  | takeReports => .clear scope.module
  | op => .report? scope.module (op.failure? vm scope)

/-- What an operation may do to the queues. -/
theorem ScopeOp.change_cases (vm : Vm σ) (scope : Scope) (op : ScopeOp) :
    op.change vm scope = .keep ∨
      (∃ r, op.failure? vm scope = some r ∧ op.change vm scope = .push scope.module r) ∨
      (op = .takeReport ∧ op.change vm scope = .pop scope.module) ∨
      (op = .takeReports ∧ op.change vm scope = .clear scope.module) := by
  have hreport : ∀ r? : Option Report, Change.report? scope.module r? = .keep ∨
      ∃ r, r? = some r ∧ Change.report? scope.module r? = .push scope.module r := by
    rintro (_ | r)
    · exact .inl rfl
    · exact .inr ⟨r, rfl, rfl⟩
  unfold change
  split
  · exact .inr (.inr (.inl ⟨rfl, rfl⟩))
  · exact .inr (.inr (.inr ⟨rfl, rfl⟩))
  · exact (hreport _).imp id .inl

theorem ScopeOp.diagnostics_perform (vm : Vm σ) (id : ScopeId) (scope : Scope) (op : ScopeOp) :
    (op.perform vm id scope).2.diagnostics = (op.change vm scope).apply vm.diagnostics := by
  cases op with
  | mint s => exact (vm.quiet_mint id _).diagnostics
  | alloc size => exact vm.diagnostics_alloc _ size
  | resize block size => exact vm.diagnostics_resize _ block size
  | free block => exact vm.diagnostics_free _ block
  | read block offset => exact (quiet_read vm id scope block offset).diagnostics
  | write block offset value =>
    exact (Vm.quiet_keepOnError fun _ hw => Vm.quiet_write hw).diagnostics
  | _ => rfl

/-! ### Histories -/

/-- What an act does to the queues. -/
def Act.change (vm : Vm σ) : Act σ → Change
  | within id op =>
    match vm.scopes.get? id with
    | some scope => op.change vm scope
    | none => .keep
  | report id r =>
    match vm.scopes.get? id with
    | some scope => .push scope.module r
    | none => .keep
  | reportInvoked r => .push r.module r
  | _ => .keep

theorem Act.diagnostics_perform (vm : Vm σ) (act : Act σ) :
    (act.perform vm).diagnostics = (act.change vm).apply vm.diagnostics := by
  cases act with
  | within id op =>
    simp only [perform, change]
    cases vm.scopes.get? id with
    | some scope => exact op.diagnostics_perform vm id scope
    | none => rfl
  | host op => exact (op.quiet_perform vm).diagnostics
  | closeScope id => exact (vm.quiet_closeScope id).diagnostics
  | deliver id value => exact (vm.quiet_mint id value).diagnostics
  | report id r =>
    simp only [perform, change]
    cases vm.scopes.get? id <;> rfl
  | defineScript module name argc body =>
    exact (vm.quiet_defineScript module name argc body).diagnostics
  | attachLibrary name library rejected =>
    exact (vm.quiet_attachLibrary name library rejected).diagnostics
  | _ => rfl

/-- The changes of steps, in order. -/
def changesOf (steps : List (Step σ)) : List Change := steps.map fun s => s.act.change s.before

theorem changesOf_append (past later : List (Step σ)) :
    changesOf (past ++ later) = changesOf past ++ changesOf later := List.map_append

namespace Steps

variable {vm₀ mid : Vm σ} {past later : List (Step σ)}

/-- **Queues along histories.** The queues at the end of a history are those at its beginning after
its changes. -/
theorem diagnostics_eq (h : Steps vm₀ past vm) :
    vm.diagnostics = (changesOf past).foldl Change.apply vm₀.diagnostics := by
  induction h with
  | refl => rfl
  | snoc act _ _ ih => simp [Act.diagnostics_perform, changesOf, ih]

/-- From a moment of a history on, a queue that no later step changes is as it was. -/
theorem queue_eq (hmid : Steps vm₀ past mid) (h : Steps vm₀ (past ++ later) vm) {owner : Handle}
    (hne : ∀ s ∈ later, (s.act.change s.before).owner? ≠ some owner) :
    vm.diagnostics.queue owner = mid.diagnostics.queue owner := by
  rw [h.diagnostics_eq, changesOf_append, List.foldl_append, ← hmid.diagnostics_eq]
  refine Change.queue_foldl_of_ne (fun c hc => ?_) _
  obtain ⟨s, hs, rfl⟩ := List.mem_map.mp hc
  exact hne s hs

end Steps

end NativeBridge
