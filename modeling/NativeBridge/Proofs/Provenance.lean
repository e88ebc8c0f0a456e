import NativeBridge.Proofs.Isolation
import NativeBridge.Proofs.Machine.Registered

/-!
# Provenance of reports

Every report in a queue names a function that is there, together with the module that the function
belongs to, and its classification fits what it is about (`report_provenance`). Reports arise in
several ways that have nothing in common but this: a heap operation names the scope that it was made
through, a fault of a body names the function that was entered, and so on (`Act.Adds`). Neither
modules nor functions are ever removed, so that a report never outlives what it names.
-/

namespace NativeBridge

open Handle.Table (Addressable)

variable {σ : Type} {vm vm' : Vm σ} {past later : List (Step σ)}

/-! ### Classification -/

/-- Where a report says that the fault occurred. -/
def Report.site (r : Report) : Site := ⟨r.module, r.function⟩

/-- The classification of a report fits what it is about. -/
structure Report.Coherent (r : Report) : Prop where
  /-- Behind a report is a fault of native code, an error of a script, or nothing. -/
  cause :
    match r.cause with
    | none => True
    | some ⟨_, .call _⟩ => r.causedByNative = true ∧ r.severity = .critical
    | some ⟨_, .script _⟩ => r.causedByNative = false ∧ r.severity = .critical
    | some ⟨_, .bridge _⟩ => False
  /-- Each message has its own producer and its own kind of cause. -/
  message :
    match r.message with
    | .shape .. => r.causedByNative = false ∧ r.cause = none
    | .interruptFailed .. => r.causedByNative = false ∧ r.cause = none
    | .interruptUnhandled _ => r.causedByNative = false ∧ r.cause = none
    | .arity .. => r.causedByNative = true ∧ r.cause = none
    | .allocation .. => r.causedByNative = true ∧ r.cause = none
    | .resize .. => r.causedByNative = true ∧ r.cause = none
    | .badResize _ => r.causedByNative = true ∧ r.cause = none
    | .badFree _ => r.causedByNative = true ∧ r.cause = none
    | .scriptFault _ => ∃ n e, r.cause = some ⟨n, .script e⟩
    | .nativeFault fault => ∃ n, r.cause = some ⟨n, .call fault⟩
    | .other _ => False

theorem FaultReport.coherent {f : Handle} {callee : Function σ} {r : Report}
    (hr : FaultReport f callee r) : r.Coherent := by
  cases hr with
  | native n fault => exact ⟨⟨rfl, rfl⟩, n, rfl⟩
  | script n e => exact ⟨⟨rfl, rfl⟩, n, e, rfl⟩

theorem FaultReport.site_eq {f : Handle} {callee : Function σ} {r : Report}
    (hr : FaultReport f callee r) : r.site = ⟨callee.module, f⟩ := by
  cases hr <;> rfl

theorem Raised.coherent {known : Handle → Function σ → Prop} {severity : Severity} {site : Site}
    {r : Report} (hr : Raised known severity site r) : r.Coherent := by
  cases hr with
  | fault hk hr => exact hr.coherent
  | interruptFault n fault => exact ⟨⟨rfl, rfl⟩, n, rfl⟩
  | _ => exact ⟨trivial, rfl, rfl⟩

/-- A call or an interrupt reports from its own site, or from a function that was called. -/
theorem Raised.site_eq {known : Handle → Function σ → Prop} {severity : Severity} {site : Site}
    {r : Report} (hr : Raised known severity site r) :
    r.site = site ∨ ∃ f callee, known f callee ∧ r.site = ⟨callee.module, f⟩ := by
  cases hr with
  | fault hk hr => exact .inr ⟨_, _, hk, hr.site_eq⟩
  | shape hk found wanted => exact .inr ⟨_, _, hk, rfl⟩
  | _ => exact .inl rfl

namespace Vm

variable {site : Site} {r : Report}

theorem coherent_of_allocFailure? {size : UInt64} (hr : vm.allocFailure? site size = some r) :
    r.site = site ∧ r.Coherent := by
  unfold allocFailure? at hr
  split at hr
  · cases hr
  · cases hr
    exact ⟨rfl, trivial, rfl, rfl⟩

theorem coherent_of_freeFailure? {h : Handle} (hr : vm.freeFailure? site h = some r) :
    r.site = site ∧ r.Coherent := by
  unfold freeFailure? at hr
  split at hr
  · cases hr
    exact ⟨rfl, trivial, rfl, rfl⟩
  · cases hr

theorem coherent_of_resizeFailure? {h : Handle} {size : UInt64}
    (hr : vm.resizeFailure? site h size = some r) : r.site = site ∧ r.Coherent := by
  unfold resizeFailure? at hr
  split at hr
  · split at hr
    · cases hr
    · exact coherent_of_allocFailure? hr
  · split at hr
    · exact coherent_of_freeFailure? hr
    · split at hr
      · cases hr
        exact ⟨rfl, trivial, rfl, rfl⟩
      · split at hr
        · cases hr
          exact ⟨rfl, trivial, rfl, rfl⟩
        · cases hr

end Vm

/-- A heap operation that fails reports from the scope that it was made through. -/
theorem ScopeOp.coherent_of_failure? {scope : Scope} {op : ScopeOp} {r : Report}
    (hr : op.failure? vm scope = some r) : r.site = scope.site ∧ r.Coherent := by
  cases op with
  | alloc size => exact Vm.coherent_of_allocFailure? hr
  | resize block size => exact Vm.coherent_of_resizeFailure? hr
  | free block => exact Vm.coherent_of_freeFailure? hr
  | _ => cases hr

/-! ### Places -/

/-- The site is a function that is there and the module that it belongs to. -/
def Vm.Binds (vm : Vm σ) (site : Site) : Prop :=
  ∃ fn, vm.object? site.function = some (.function fn) ∧ fn.module = site.module

section Histories

variable {options : Options} {memory : σ}

/-- A function and its module stay. -/
theorem Vm.Binds.lasts {site : Site} (hsite : vm.Binds site)
    (hpast : Steps (Vm.new options memory) past vm)
    (h : Steps (Vm.new options memory) (past ++ later) vm') (hf : vm'.table.Addressable) :
    vm'.Binds site := by
  obtain ⟨fn, hfn, hmodule⟩ := hsite
  obtain ⟨_, hfn', rfl⟩ := Steps.object_lasts (Vm.sound_new options memory) hpast h hf hfn trivial
  exact ⟨fn, hfn', hmodule⟩

/-- What was known as a function at some moment is that function now. -/
theorem Steps.object?_of_known (h : Steps (Vm.new options memory) past vm)
    (hf : vm.table.Addressable) {f : Handle} {callee : Function σ}
    (hk : Known past vm f callee) : vm.object? f = some (.function callee) := by
  have hs := Vm.sound_new options memory
  induction h with
  | refl => exact hk.resolve_right fun ⟨_, hmem, _⟩ => nomatch hmem
  | snoc act hpast ha ih =>
    next earlier before =>
    have hlasts : before.object? f = some (.function callee) →
        (act.perform before).object? f = some (.function callee) := by
      intro hthen
      obtain ⟨_, hnow, rfl⟩ := object_lasts hs hpast (hpast.snoc act ha) hf hthen trivial
      exact hnow
    rcases hk with hnow | ⟨s, hmem, hthen⟩
    · exact hnow
    · refine hlasts (ih (Act.addressable ha hf) ?_)
      rcases List.mem_append.mp hmem with hmem | hmem
      · exact .inr ⟨s, hmem, hthen⟩
      · obtain rfl := List.mem_singleton.mp hmem
        exact .inl hthen

/-- The module of a site that is bound is there. -/
theorem Steps.module_of_binds (h : Steps (Vm.new options memory) past vm)
    (hf : vm.table.Addressable) {site : Site} (hsite : vm.Binds site) :
    ∃ m, vm.object? site.module = some (.module m) := by
  obtain ⟨fn, hfn, hmodule⟩ := hsite
  obtain ⟨m, hm, -⟩ := (h.registered hf).owner hfn
  exact ⟨m, hmodule ▸ hm⟩

theorem Steps.binds_of_scope (h : Steps (Vm.new options memory) past vm)
    (hf : vm.table.Addressable) {id : ScopeId} {scope : Scope}
    (hid : vm.scopes.get? id = some scope) : vm.Binds scope.site :=
  h.scopesBound hf (Vm.siteOf_eq_some.mpr ⟨scope, hid, rfl⟩)

/-! ### Reports that are added -/

/-- A report that is added is coherent and names a function that is there with its module. -/
theorem Act.Adds.attributed {act : Act σ} {owner : Handle} {r : Report}
    (hadds : act.Adds past vm owner r) (h : Steps (Vm.new options memory) past vm)
    (hf : vm.table.Addressable) : r.Coherent ∧ vm.Binds r.site := by
  have hknown : ∀ {f : Handle} {callee : Function σ}, Known past vm f callee →
      r.site = ⟨callee.module, f⟩ → vm.Binds r.site := by
    intro f callee hk hsite
    rw [hsite]
    exact ⟨callee, h.object?_of_known hf hk, rfl⟩
  cases hadds with
  | heap hid howner hr =>
    obtain ⟨hsite, hcoherent⟩ := ScopeOp.coherent_of_failure? hr
    exact ⟨hcoherent, hsite ▸ h.binds_of_scope hf hid⟩
  | raised hid howner hr =>
    refine ⟨hr.coherent, ?_⟩
    rcases hr.site_eq with hsite | ⟨f, callee, hk, hsite⟩
    · rw [hsite]
      exact h.binds_of_scope hf hid
    · exact hknown hk hsite
  | invoked hk howner hr => exact ⟨hr.coherent, hknown hk hr.site_eq⟩

/-- What is in a queue after an act was there before, or the act added it. -/
theorem Act.Changes.mem {act : Act σ} {owner : Handle} {q q' : List Report}
    (hchange : act.Changes past vm owner q q') {r : Report} (hr : r ∈ q') :
    r ∈ q ∨ act.Adds past vm owner r := by
  cases hchange with
  | keeps => exact .inl hr
  | adds hadds =>
    rcases List.mem_append.mp hr with hr | hr
    · split at hr
      · exact .inl (List.mem_of_mem_tail hr)
      · exact .inl hr
    · obtain rfl := List.mem_singleton.mp hr
      exact .inr hadds
  | takesLatest => exact .inl (List.dropLast_subset _ hr)
  | takesAll => cases hr

/-- At every moment of a history, every report in a queue is coherent and names a function that is
there with its module. -/
theorem Steps.attributed (h : Steps (Vm.new options memory) past vm) (hf : vm.table.Addressable)
    {owner : Handle} {r : Report} (hr : r ∈ vm.diagnostics.queue owner) :
    r.Coherent ∧ vm.Binds r.site := by
  induction h with
  | refl => cases hr
  | snoc act hpast ha ih =>
    have hf' := Act.addressable ha hf
    obtain ⟨hcoherent, hbinds⟩ := ((ha.changes owner).mem hr).elim (ih hf') fun hadds =>
      hadds.attributed hpast hf'
    exact ⟨hcoherent, hbinds.lasts hpast (hpast.snoc act ha) hf⟩

/-! ### Provenance -/

/-- **Provenance of reports.** In every state that a machine reaches,

* every report in a queue is coherent, and now and in every later state its module and its function
  are handles other than null which address a module, and a function that belongs to the module;
* every scope that is open replies with a function that is there and with the module that the
  function belongs to. -/
theorem report_provenance (h : Steps (Vm.new options memory) past vm)
    (hf : vm.table.Addressable) :
    (∀ owner, ∀ r ∈ vm.diagnostics.queue owner, r.Coherent ∧
      ∀ later vm', Steps (Vm.new options memory) (past ++ later) vm' → vm'.table.Addressable →
        r.module ≠ Handle.null ∧ r.function ≠ Handle.null ∧
        ∃ m fn, vm'.object? r.module = some (.module m) ∧
          vm'.object? r.function = some (.function fn) ∧ fn.module = r.module) ∧
    ∀ id scope, vm.scopes.get? id = some scope →
      ∃ fn, vm.object? (ScopeOp.currentFunction.perform vm id scope).1 = some (.function fn) ∧
        (ScopeOp.currentModule.perform vm id scope).1 = fn.module := by
  refine ⟨fun owner r hr => ?_, fun id scope hid => ?_⟩
  · obtain ⟨hcoherent, hbinds⟩ := h.attributed hf hr
    refine ⟨hcoherent, fun later vm' hlater hf' => ?_⟩
    have hbinds' := hbinds.lasts h hlater hf'
    obtain ⟨m, hm⟩ := hlater.module_of_binds hf' hbinds'
    obtain ⟨fn, hfn, hmodule⟩ := hbinds'
    have hnull : ∀ {k : Handle} {o : Object σ}, vm'.object? k = some o → k ≠ Handle.null := by
      rintro k o ho rfl
      cases ho
    exact ⟨hnull hm, hnull hfn, m, fn, hm, hfn, hmodule⟩
  · obtain ⟨fn, hfn, hmodule⟩ := h.binds_of_scope hf hid
    exact ⟨fn, hfn, hmodule.symm⟩

end Histories

/-- In the midst of the tour, the module frees what is no longer there. -/
def freeDead : Act Unit := .within ⟨0⟩ (.free (.ofParts 2 1))

/-- The report on freeing what is no longer there names the module of the tour and its top-level
code. -/
theorem report_provenance_freeDead :
    ∃ past r, Steps (.new .default ()) past (freeDead.perform midTour) ∧
      (freeDead.perform midTour).diagnostics.queue (.ofParts 0 1) = [r] ∧
      r.Coherent ∧ ∃ m fn,
        (freeDead.perform midTour).object? r.module = some (.module m) ∧
        (freeDead.perform midTour).object? r.function = some (.function fn) ∧
        fn.module = r.module := by
  obtain ⟨past, hpast⟩ := steps_midTour
  have hopen : (midTour.scopes.get? ⟨0⟩).isSome = true := by decide +kernel
  have h := hpast.snoc freeDead (Option.isSome_iff_exists.mp hopen)
  have hf : (freeDead.perform midTour).table.Addressable := by
    unfold Addressable
    decide +kernel
  have hlength : ((freeDead.perform midTour).diagnostics.queue (.ofParts 0 1)).length = 1 := by
    decide +kernel
  obtain ⟨r, hr⟩ := List.length_eq_one_iff.mp hlength
  obtain ⟨hcoherent, hplace⟩ := (report_provenance h hf).1 (.ofParts 0 1) r
    (hr ▸ List.mem_singleton_self r)
  obtain ⟨-, -, hobjects⟩ := hplace [] _ (by simpa using h) hf
  exact ⟨_, r, h, hr, hcoherent, hobjects⟩

end NativeBridge
