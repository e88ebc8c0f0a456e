import NativeBridge.Proofs.Contents
import NativeBridge.Proofs.Failure

/-!
# Heap operations that fail

A heap operation either succeeds or leaves the machine as it was (`heap_failure`). Accesses to
cells fail with an error, and `Vm.read_eq_error_iff`, `Vm.write_eq_error_iff` and
`Vm.protect_eq_error_iff` say with which: a bad handle if there is no such cell, and a violation of
protection if there is one that is protected against the access. Operations on whole blocks fail
with one report to the module that is at work.
-/

namespace NativeBridge

variable {σ : Type} {vm vm' : Vm σ} {b v : Handle} {o : UInt64} {e : BridgeError}

namespace Vm

/-! ### Cells that are not there -/

/-- The handle `b` addresses no block with a cell at the offset `o`. -/
def OutOfReach (vm : Vm σ) (b : Handle) (o : UInt64) : Prop :=
  ∀ blk, vm.object? b = some (.block blk) → blk.cells.size ≤ o.toNat

/-- What is at fault if the handle `b` addresses no block with a cell at the offset `o`. -/
inductive Misses (vm : Vm σ) (b : Handle) (o : UInt64) : HandleFault → Prop
  | nothing (hb : vm.object? b = none) : Misses vm b o (.addressesNothing b .block)
  | other {a : Object σ} (hb : vm.object? b = some a) (ha : ∀ blk, a ≠ .block blk) :
    Misses vm b o (.addresses b a.kind .block)
  | outOfBounds {blk : Heap.Block} (hb : vm.object? b = some (.block blk))
    (ho : blk.cells.size ≤ o.toNat) : Misses vm b o (.outOfBounds b o blk.size)

theorem exists_misses_iff : (∃ fault, vm.Misses b o fault) ↔ vm.OutOfReach b o := by
  constructor
  · rintro ⟨fault, hb | ⟨hb, ha⟩ | ⟨hb, ho⟩⟩ blk hblk
    · cases hb.symm.trans hblk
    · exact absurd (Option.some_inj.mp (hb.symm.trans hblk)) (ha blk)
    · cases hb.symm.trans hblk
      exact ho
  · intro h
    cases hb : vm.object? b with
    | none => exact ⟨_, .nothing hb⟩
    | some a =>
      cases a with
      | block blk => exact ⟨_, .outOfBounds hb (h blk hb)⟩
      | _ => exact ⟨_, .other hb fun _ ha => by cases ha⟩

theorem block_eq_error_iff :
    vm.block b = .error e ↔
      (vm.object? b = none ∧ e = .badHandle (.addressesNothing b .block)) ∨
        ∃ a, vm.object? b = some a ∧ (∀ blk, a ≠ .block blk) ∧
          e = .badHandle (.addresses b a.kind .block) := by
  unfold block
  split
  · next blk hb => simp [hb]
  · next a ha hb =>
    simp only [hb, reduceCtorEq, false_and, false_or, Option.some.injEq, exists_eq_left']
    exact ⟨fun he => ⟨fun blk hblk => ha blk hblk, by cases he; rfl⟩, fun h => h.2 ▸ rfl⟩
  · next hb => simp [hb, eq_comm]

theorem cell_eq_error_iff :
    vm.cell b o = .error e ↔ ∃ fault, vm.Misses b o fault ∧ e = .badHandle fault := by
  constructor
  · intro hcell
    unfold cell at hcell
    split at hcell
    · next e' hblock =>
      cases hcell
      rcases block_eq_error_iff.mp hblock with ⟨hb, rfl⟩ | ⟨a, hb, ha, rfl⟩
      · exact ⟨_, .nothing hb, rfl⟩
      · exact ⟨_, .other hb ha, rfl⟩
    · next blk hblock =>
      split at hcell
      · cases hcell
      · next hc =>
        cases hcell
        exact ⟨_, .outOfBounds (block_eq_ok.mp hblock) (Array.getElem?_eq_none_iff.mp hc), rfl⟩
  · rintro ⟨fault, hmiss, rfl⟩
    cases hmiss with
    | nothing hb => rw [cell, block_eq_error_iff.mpr (.inl ⟨hb, rfl⟩)]
    | other hb ha => rw [cell, block_eq_error_iff.mpr (.inr ⟨_, hb, ha, rfl⟩)]
    | outOfBounds hb ho =>
      rw [cell, block_eq_ok.mpr hb]
      simp only [Heap.Block.cell?, Array.getElem?_eq_none ho]

theorem cell?_holdings_of_cell {blk : Heap.Block} {c : Heap.Cell}
    (hcell : vm.cell b o = .ok (blk, c)) : vm.holdings.cell? b o = some c :=
  Holdings.cell?_eq_some.mpr ⟨blk, cell_eq_ok.mp hcell⟩

/-! ### Accesses -/

/-- Why an access that the protections in `guard` forbid fails at the offset `o` of what `b`
addresses: there is no such cell, or the cell has one of the protections. -/
inductive Barred (vm : Vm σ) (b : Handle) (o : UInt64) (guard : Heap.Protection → Bool)
    (violation : AccessFault) : BridgeError → Prop
  | misses {fault : HandleFault} (h : vm.Misses b o fault) :
    Barred vm b o guard violation (.badHandle fault)
  | guarded {c : Heap.Cell} (hc : vm.holdings.cell? b o = some c)
    (hp : guard c.protection = true) :
    Barred vm b o guard violation (.security violation)

section Barred

variable {guard : Heap.Protection → Bool} {violation : AccessFault}

theorem barred_badHandle_iff :
    (∃ fault, vm.Barred b o guard violation (.badHandle fault)) ↔ vm.OutOfReach b o := by
  rw [← exists_misses_iff]
  constructor
  · rintro ⟨fault, h⟩
    cases h with
    | misses h => exact ⟨fault, h⟩
  · rintro ⟨fault, h⟩
    exact ⟨fault, .misses h⟩

theorem barred_security_iff :
    (∃ fault, vm.Barred b o guard violation (.security fault)) ↔
      ∃ c, vm.holdings.cell? b o = some c ∧ guard c.protection = true := by
  constructor
  · rintro ⟨fault, h⟩
    cases h with
    | guarded hc hp => exact ⟨_, hc, hp⟩
  · rintro ⟨c, hc, hp⟩
    exact ⟨violation, .guarded hc hp⟩

/-- An access that looks at the protection of a cell before all else fails exactly if it is
barred. -/
theorem access_eq_error_iff {α : Type} {next : Heap.Block × Heap.Cell → α} :
    ((vm.cell b o).bind fun found =>
      if guard found.2.protection then .error (.security violation) else .ok (next found)) =
        .error e ↔ vm.Barred b o guard violation e := by
  constructor
  · intro haccess
    cases hcell : vm.cell b o with
    | error e' =>
      rw [hcell] at haccess
      cases haccess
      obtain ⟨fault, hmiss, rfl⟩ := cell_eq_error_iff.mp hcell
      exact .misses hmiss
    | ok found =>
      rw [hcell, Except.bind] at haccess
      split at haccess
      · next hp =>
        cases haccess
        exact .guarded (cell?_holdings_of_cell hcell) hp
      · cases haccess
  · rintro (hmiss | ⟨hc, hp⟩)
    · rw [cell_eq_error_iff.mpr ⟨_, hmiss, rfl⟩]
      rfl
    · obtain ⟨blk, hcell⟩ := cell_of_cell?_holdings hc
      rw [hcell]
      exact if_pos hp

end Barred

theorem read_eq_error_iff :
    vm.read b o = .error e ↔ vm.Barred b o Heap.Protection.read (.read b o) e := by
  rw [← access_eq_error_iff, read]
  cases vm.cell b o <;> rfl

/-- What is to be stored does not matter. -/
theorem store_eq_error_iff {value : Option Value} :
    vm.store b o value = .error e ↔ vm.Barred b o Heap.Protection.write (.write b o) e := by
  rw [← access_eq_error_iff, store]
  cases vm.cell b o <;> rfl

/-- What is to be written is looked at first. -/
theorem write_eq_error_iff :
    vm.write b o v = .error e ↔
      (vm.Dead v ∧ e = .badHandle (.staleStore v)) ∨
        ¬ vm.Dead v ∧ vm.Barred b o Heap.Protection.write (.write b o) e := by
  by_cases hdead : vm.Dead v
  · simp [hdead.write_value_eq, hdead, eq_comm]
  · have hstore : ∃ value, vm.write b o v = vm.store b o value := by
      unfold write
      split
      · next hnone => exact absurd (value?_eq_none_iff.mp hnone) hdead
      · exact ⟨_, rfl⟩
      · exact ⟨_, rfl⟩
    obtain ⟨value, hstore⟩ := hstore
    simp [hstore, store_eq_error_iff, hdead]

theorem protect_eq_error_iff {p : Heap.Protection} :
    vm.protect b o p = .error e ↔ ∃ fault, vm.Misses b o fault ∧ e = .badHandle fault := by
  rw [← cell_eq_error_iff, protect]
  split
  · next e' hcell => rw [hcell]; simp
  · next hcell => rw [hcell]; simp

/-- An operation that fails keeps the machine. -/
theorem keepOnError_eq_error_iff {result : Except BridgeError (Vm σ)} :
    vm.keepOnError result = (.error e, vm') ↔ vm' = vm ∧ result = .error e := by
  cases result <;> simp [keepOnError, and_comm, eq_comm]

end Vm

theorem ScopeOp.perform_read_eq_error_iff {id : ScopeId} {scope : Scope} :
    (ScopeOp.read b o).perform vm id scope = (Except.error e, vm') ↔
      vm' = vm ∧ vm.read b o = .error e := by
  constructor
  · intro hperform
    cases hread : vm.read b o with
    | error e' =>
      simp only [perform, hread] at hperform
      cases hperform
      exact ⟨rfl, rfl⟩
    | ok value =>
      cases value with
      | none =>
        rw [perform_read_none hread] at hperform
        cases hperform
      | some value =>
        rw [perform_read_some hread] at hperform
        cases hperform
  · rintro ⟨rfl, hread⟩
    simp only [perform, hread]
    rfl

/-! ### Whole blocks -/

/-- The machine `vm'` is `vm` with one more report, of native code at work in the scope. The report
is the latest in the queue of the module of the scope, and nothing but the log tells of it too. -/
def Vm.Protests (vm : Vm σ) (scope : Scope) (vm' : Vm σ) : Prop :=
  ∃ severity message, vm' = vm.report scope.site true severity message ∧
    vm.Reported scope.module ⟨scope.module, scope.function, true, severity, none, message⟩ vm'

namespace Vm

variable {scope : Scope}

theorem protests_report (vm : Vm σ) (scope : Scope) (severity : Severity) (message : Message) :
    vm.Protests scope (vm.report scope.site true severity message) :=
  ⟨severity, message, rfl, vm.reported_push ..⟩

theorem protests_alloc {n : UInt64} (ha : (vm.alloc scope.site n).1 = none) :
    vm.Protests scope (vm.alloc scope.site n).2 := by
  unfold alloc at ha ⊢
  split at ha
  · cases ha
  · next hfull =>
    rw [if_neg hfull]
    exact vm.protests_report ..

theorem protests_free (hb : ∀ blk, vm.object? b ≠ some (.block blk)) :
    vm.Protests scope (vm.free scope.site b) := by
  unfold free
  split
  · exact vm.protests_report ..
  · next blk hblock => exact absurd (block_eq_ok.mp hblock) (hb blk)

theorem protests_resizeBlock {n : UInt64} (hr : (vm.resizeBlock scope.site b n).1 = none) :
    vm.Protests scope (vm.resizeBlock scope.site b n).2 := by
  unfold resizeBlock at hr ⊢
  cases hblock : vm.block b with
  | error e => exact vm.protests_report ..
  | ok blk =>
    simp only [hblock] at hr ⊢
    split at hr
    · next hfull =>
      rw [if_pos hfull]
      exact vm.protests_report ..
    · cases hr

theorem protests_resize {n : UInt64} (hnull : b = Handle.null → n ≠ 0)
    (hzero : n = 0 → ∀ blk, vm.object? b ≠ some (.block blk))
    (hr : (vm.resize scope.site b n).1 = none) :
    vm.Protests scope (vm.resize scope.site b n).2 := by
  unfold resize at hr ⊢
  by_cases hb : b.isNull = true
  · rw [if_pos hb, if_neg (hnull (Handle.isNull_iff.mp hb))] at hr ⊢
    exact protests_alloc hr
  · rw [if_neg hb] at hr ⊢
    by_cases hn : n = 0
    · rw [if_pos hn]
      exact protests_free (hzero hn)
    · rw [if_neg hn] at hr ⊢
      exact protests_resizeBlock hr

end Vm

/-- **Failures on the heap.** In every state of a machine, whatever the handles, offsets and sizes:

* a read fails with a bad handle exactly if its cell is not there, and with a violation exactly if
  the cell is there and protected against reads;
* a write fails with a bad handle exactly if the handle to be written is dead or the cell is not
  there, and with a violation exactly if neither is so and the cell is protected against writes;
* protecting a cell fails exactly if the cell is not there, and only with a bad handle;
* all these leave the machine as it was if they fail;
* an allocation, a resize or a freeing that fails leaves one report of native code with the module
  of its scope and all else as it was. A resize of the null handle to size zero is no failure, nor
  is one of a live block, which frees it. -/
theorem heap_failure (vm : Vm σ) (id : ScopeId) (scope : Scope) :
    (∀ b o,
      let read := (ScopeOp.read b o).perform vm id scope
      ((∃ fault, read = (Except.error (.badHandle fault), vm)) ↔ vm.OutOfReach b o) ∧
      ((∃ fault, read = (Except.error (.security fault), vm)) ↔
        ∃ c, vm.holdings.cell? b o = some c ∧ c.protection.read = true) ∧
      ∀ e vm', read = (Except.error e, vm') → vm' = vm) ∧
    (∀ b o v,
      let write := (ScopeOp.write b o v).perform vm id scope
      ((∃ fault, write = (Except.error (.badHandle fault), vm)) ↔
        vm.Dead v ∨ vm.OutOfReach b o) ∧
      ((∃ fault, write = (Except.error (.security fault), vm)) ↔
        ¬ vm.Dead v ∧ ∃ c, vm.holdings.cell? b o = some c ∧ c.protection.write = true) ∧
      ∀ e vm', write = (Except.error e, vm') → vm' = vm) ∧
    (∀ b o p,
      let protect := (HostOp.protect b o p).perform vm
      ((∃ fault, protect = (Except.error (.badHandle fault), vm)) ↔ vm.OutOfReach b o) ∧
      ∀ e vm', protect = (Except.error e, vm') → vm' = vm ∧ ∃ fault, e = .badHandle fault) ∧
    (∀ n,
      let alloc := (ScopeOp.alloc n).perform vm id scope
      alloc.1 = none → vm.Protests scope alloc.2) ∧
    (∀ b n, (b = Handle.null → n ≠ 0) → (n = 0 → ∀ blk, vm.object? b ≠ some (.block blk)) →
      let resize := (ScopeOp.resize b n).perform vm id scope
      resize.1 = none → vm.Protests scope resize.2) ∧
    ∀ b, (∀ blk, vm.object? b ≠ some (.block blk)) →
      vm.Protests scope ((ScopeOp.free b).perform vm id scope).2 := by
  have hwrite : ∀ {b o v e vm'}, (ScopeOp.write b o v).perform vm id scope = (Except.error e, vm') ↔
      vm' = vm ∧ vm.write b o v = .error e := Vm.keepOnError_eq_error_iff
  have hprotect : ∀ {b o p e vm'}, (HostOp.protect b o p).perform vm = (Except.error e, vm') ↔
      vm' = vm ∧ vm.protect b o p = .error e := Vm.keepOnError_eq_error_iff
  refine ⟨fun b o => ⟨?_, ?_, ?_⟩, fun b o v => ⟨?_, ?_, ?_⟩, fun b o p => ⟨?_, ?_⟩,
    fun n => Vm.protests_alloc, fun b n hnull hzero => Vm.protests_resize hnull hzero,
    fun b hb => Vm.protests_free hb⟩
  · simp only [ScopeOp.perform_read_eq_error_iff, true_and, Vm.read_eq_error_iff]
    exact Vm.barred_badHandle_iff
  · simp only [ScopeOp.perform_read_eq_error_iff, true_and, Vm.read_eq_error_iff]
    exact Vm.barred_security_iff
  · intro e vm' hread
    exact (ScopeOp.perform_read_eq_error_iff.mp hread).1
  · have hbarred : (∃ fault, vm.Barred b o Heap.Protection.write (.write b o) (.badHandle fault)) ↔
        vm.OutOfReach b o := Vm.barred_badHandle_iff
    simp only [hwrite, true_and, Vm.write_eq_error_iff]
    by_cases hdead : vm.Dead v
    · simp [hdead]
    · simpa [hdead] using hbarred
  · have hbarred : (∃ fault, vm.Barred b o Heap.Protection.write (.write b o) (.security fault)) ↔
        ∃ c, vm.holdings.cell? b o = some c ∧ c.protection.write = true := Vm.barred_security_iff
    simp only [hwrite, true_and, Vm.write_eq_error_iff]
    by_cases hdead : vm.Dead v
    · simp [hdead]
    · simpa [hdead] using hbarred
  · intro e vm' h
    exact (hwrite.mp h).1
  · simp only [hprotect, true_and, Vm.protect_eq_error_iff, BridgeError.badHandle.injEq,
      exists_eq_right']
    exact Vm.exists_misses_iff
  · intro e vm' h
    obtain ⟨rfl, he⟩ := hprotect.mp h
    obtain ⟨fault, -, rfl⟩ := Vm.protect_eq_error_iff.mp he
    exact ⟨rfl, fault, rfl⟩

/-- In the midst of the tour, the second cell of the block is protected against writes, which does
not show if what is to be written is dead. There is no room for the largest block, neither for a new
one nor in the place of the one that is there, and the text is no block to be freed. After the
allocation the module has a report of it, and the queues of others are as they were. -/
theorem heap_failure_midTour :
    let scope : Scope := ⟨.ofParts 0 1, .ofParts 1 1, [.ofParts 2 1, .ofParts 2 2]⟩
    let denied := (ScopeOp.alloc 0xFFFFFFFFFFFFFFFF).perform midTour ⟨0⟩ scope
    (∃ fault, (ScopeOp.write tourBlock 1 (.ofParts 2 2)).perform midTour ⟨0⟩ scope =
      (Except.error (.security fault), midTour)) ∧
    (∃ fault, (ScopeOp.write tourBlock 1 (.ofParts 2 1)).perform midTour ⟨0⟩ scope =
      (Except.error (.badHandle fault), midTour)) ∧
    midTour.Protests scope denied.2 ∧
    midTour.Protests scope
      ((ScopeOp.resize tourBlock 0xFFFFFFFFFFFFFFFF).perform midTour ⟨0⟩ scope).2 ∧
    midTour.Protests scope ((ScopeOp.free (.ofParts 2 2)).perform midTour ⟨0⟩ scope).2 ∧
    denied.2.diagnostics.queue (.ofParts 0 1) =
      [⟨.ofParts 0 1, .ofParts 1 1, true, .error, none,
        .allocation 0xFFFFFFFFFFFFFFFF 2 midTour.options.maxHeapSlots⟩] ∧
    ∀ other, other ≠ .ofParts 0 1 →
      denied.2.diagnostics.queue other = midTour.diagnostics.queue other := by
  intro scope denied
  obtain ⟨-, hwrite, -, halloc, hresize, hfree⟩ := heap_failure midTour ⟨0⟩ scope
  have htext : midTour.object? (.ofParts 2 2) = some (.scalar (.string "seven")) :=
    Vm.object?_of_value? (by decide +kernel)
  have hlive : ¬ midTour.Dead (.ofParts 2 2) := fun h => by cases htext.symm.trans h.nothing
  obtain ⟨blk, c, hcell, hprot⟩ := Vm.protection?_eq_some.mp
    (show midTour.protection? tourBlock 1 = some .writes by decide +kernel)
  have hnew : (midTour.alloc scope.site 0xFFFFFFFFFFFFFFFF).1 = none := by decide +kernel
  have hlarger : (midTour.resize scope.site tourBlock 0xFFFFFFFFFFFFFFFF).1 = none := by
    decide +kernel
  have hdenied : midTour.Protests scope denied.2 := halloc 0xFFFFFFFFFFFFFFFF hnew
  have hothers : ∀ other, other ≠ .ofParts 0 1 →
      denied.2.diagnostics.queue other = midTour.diagnostics.queue other := by
    obtain ⟨severity, message, -, hreported⟩ := hdenied
    exact hreported.others
  refine ⟨(hwrite tourBlock 1 (.ofParts 2 2)).2.1.mpr
      ⟨hlive, c, Vm.cell?_holdings_of_cell hcell, by rw [hprot]; rfl⟩,
    (hwrite tourBlock 1 (.ofParts 2 1)).1.mpr (.inl dead_midTour),
    hdenied,
    hresize tourBlock 0xFFFFFFFFFFFFFFFF (fun _ => by decide) (fun h => absurd h (by decide))
      hlarger,
    hfree (.ofParts 2 2) fun blk hb => ?_,
    by decide +kernel, hothers⟩
  cases htext.symm.trans hb

end NativeBridge
