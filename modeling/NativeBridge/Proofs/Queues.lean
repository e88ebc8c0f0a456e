import NativeBridge.Proofs.Machine.Queue

/-!
# Queues of reports as bounded queues

What a machine is asked about its reports, by or for any number of owners and in any order, it
answers as if every owner had a bounded queue of its own (`queues_refine`): the requests of an
owner get the replies that a single `BoundedQueue` gives to these requests alone. That queue keeps
the latest reports, as many as it has room for. The machine drops one report if the length equals
the capacity, which comes to the same only because no queue is ever longer (`Vm.serve_self`). The
journal tells the reports that each queue dropped, so that no report is lost without a trace
(`BoundedQueue.perm_serveAll`).
-/

namespace NativeBridge

open Diagnostics (Change)

variable {σ : Type} {vm : Vm σ} {owner : Handle}

/-! ### Requests -/

namespace Diagnostics

/-- What is asked of the queue of an owner. -/
inductive Request where
  /-- A report is added as the latest. -/
  | push (r : Report)
  /-- The latest report is looked at. -/
  | latest
  /-- The latest report is taken. -/
  | take
  /-- All reports are taken. -/
  | takeAll
  /-- The reports are counted. -/
  | pending
  /-- The data of the reports is written out. -/
  | dump

/-- What is replied to a request. -/
inductive Reply where
  | added
  | report (r : Option Report)
  | reports (rs : List Report)
  | count (n : ℕ)
  | data (j : Json)

/-- What a request does to the queues. -/
def Request.change (owner : Handle) : Request → Change
  | push r => .push owner r
  | take => .pop owner
  | takeAll => .clear owner
  | _ => .keep

/-- What a request is among the things that are done to a machine: a report through a scope of the
owner, an operation through the scope, or one of the host. -/
def Request.perform (vm : Vm σ) (id : ScopeId) (scope : Scope) : Request → Reply × Vm σ
  | push r => (.added, (Act.report id r).perform vm)
  | latest => (ScopeOp.latestReport.perform vm id scope).map Reply.report (fun vm => vm)
  | take => (ScopeOp.takeReport.perform vm id scope).map Reply.report (fun vm => vm)
  | takeAll => (ScopeOp.takeReports.perform vm id scope).map Reply.reports (fun vm => vm)
  | pending => ((HostOp.pending scope.module).perform vm).map Reply.count (fun vm => vm)
  | dump => ((HostOp.dumpReports scope.module).perform vm).map Reply.data (fun vm => vm)

end Diagnostics

open Diagnostics (Request Reply)

namespace Vm

/-- The machine serves a request about the reports of an owner. -/
def serve (vm : Vm σ) (owner : Handle) : Request → Reply × Vm σ
  | .push r => (.added, vm.push owner r)
  | .latest => (.report (vm.diagnostics.latest? owner), vm)
  | .take =>
    (.report (vm.diagnostics.latest? owner),
      { vm with diagnostics := vm.diagnostics.pop owner })
  | .takeAll =>
    (.reports (vm.diagnostics.queue owner),
      { vm with diagnostics := vm.diagnostics.clear owner })
  | .pending => (.count (vm.diagnostics.pending owner), vm)
  | .dump => (.data (vm.diagnostics.toJson owner), vm)

/-- The machine serves requests in order, each with its owner, and keeps what it replied. -/
def serveAll (vm : Vm σ) : List (Handle × Request) → List (Handle × Request × Reply) × Vm σ
  | [] => ([], vm)
  | (owner, q) :: rest =>
    let (reply, vm) := vm.serve owner q
    let (replies, vm) := vm.serveAll rest
    ((owner, q, reply) :: replies, vm)

theorem serve_eq_perform {id : ScopeId} {scope : Scope} (hid : vm.scopes.get? id = some scope)
    (q : Request) : vm.serve scope.module q = q.perform vm id scope := by
  cases q with
  | push r => simp [serve, Request.perform, Act.perform, hid]
  | _ => rfl

theorem diagnostics_serve (vm : Vm σ) (owner : Handle) (q : Request) :
    (vm.serve owner q).2.diagnostics = (q.change owner).apply vm.diagnostics := by
  cases q <;> rfl

/-- The reports that the queue of an owner dropped, by the journal. -/
def droppedFrom (vm : Vm σ) (owner : Handle) : List Report :=
  vm.journal.toList.filterMap fun
    | .reportDropped o r => if o = owner then some r else none
    | _ => none

theorem droppedFrom_push (vm : Vm σ) (o owner : Handle) (r : Report) :
    (vm.push o r).droppedFrom owner =
      vm.droppedFrom owner ++
        if o = owner then (vm.diagnostics.evicted? owner).toList else [] := by
  by_cases ho : o = owner
  · subst ho
    cases hlog : vm.options.logDiagnostics <;> cases hold : vm.diagnostics.evicted? o <;>
      simp [droppedFrom, push, hlog, hold, record]
  · cases hlog : vm.options.logDiagnostics <;> cases hold : vm.diagnostics.evicted? o <;>
      simp [droppedFrom, push, hlog, hold, record, ho]

end Vm

/-! ### A single bounded queue -/

/-- A bounded queue of reports, with an account of the reports that it dropped. -/
structure BoundedQueue where
  /-- The reports, the oldest in front. -/
  reports : List Report
  /-- The reports that were dropped, in that order. -/
  dropped : List Report

namespace BoundedQueue

/-- The queue serves a request. It keeps the latest reports, as many as it has room for, and drops
those that are older. -/
def serve (capacity : ℕ) (b : BoundedQueue) : Request → Reply × BoundedQueue
  | .push r =>
    let all := b.reports ++ [r]
    let excess := all.length - capacity
    (.added, ⟨all.drop excess, b.dropped ++ all.take excess⟩)
  | .latest => (.report b.reports.getLast?, b)
  | .take => (.report b.reports.getLast?, ⟨b.reports.dropLast, b.dropped⟩)
  | .takeAll => (.reports b.reports, ⟨[], b.dropped⟩)
  | .pending => (.count b.reports.length, b)
  | .dump => (.data (.array (b.reports.map Report.toJson)), b)

/-- The queue serves requests in order. -/
def serveAll (capacity : ℕ) (b : BoundedQueue) :
    List Request → List (Request × Reply) × BoundedQueue
  | [] => ([], b)
  | q :: rest =>
    let (reply, b) := b.serve capacity q
    let (replies, b) := b.serveAll capacity rest
    ((q, reply) :: replies, b)

end BoundedQueue

/-- The reports that came with a request. -/
def pushedBy : Request × Reply → List Report
  | (.push r, _) => [r]
  | _ => []

/-- The report that was taken as the latest one. -/
def poppedBy : Request × Reply → List Report
  | (.take, .report r) => r.toList
  | _ => []

/-- The reports that were taken all together. -/
def drainedBy : Request × Reply → List Report
  | (.takeAll, .reports rs) => rs
  | _ => []

namespace BoundedQueue

variable {capacity : ℕ} {b : BoundedQueue}

theorem length_serve_le (hb : b.reports.length ≤ capacity) (q : Request) :
    (b.serve capacity q).2.reports.length ≤ capacity := by
  cases q with
  | push r =>
    rw [serve, List.length_drop]
    omega
  | take =>
    have hshorter := b.reports.length_dropLast
    simp only [serve]
    omega
  | takeAll => exact Nat.zero_le _
  | _ => exact hb

/-- As long as the queue is no longer than it may be, a report drops one at most: the oldest one of
a full queue. -/
theorem serve_push (hcap : 0 < capacity) (hb : b.reports.length ≤ capacity) (r : Report) :
    b.serve capacity (.push r) =
      (.added,
        if b.reports.length = capacity
        then ⟨b.reports.tail ++ [r], b.dropped ++ b.reports.head?.toList⟩
        else ⟨b.reports ++ [r], b.dropped⟩) := by
  simp only [serve]
  split
  · next hfull =>
    obtain ⟨oldest, rest, hreports⟩ := List.exists_cons_of_length_pos (hfull ▸ hcap)
    have hexcess : (b.reports ++ [r]).length - capacity = 1 := by simp [hfull]
    rw [hexcess, hreports]
    rfl
  · next hroom =>
    have hexcess : (b.reports ++ [r]).length - capacity = 0 := by
      rw [List.length_append, List.length_singleton]
      omega
    rw [hexcess, List.take_zero, List.append_nil, List.drop_zero]

theorem sublist_serve (capacity : ℕ) (b : BoundedQueue) (q : Request) :
    (b.serve capacity q).2.reports.Sublist
      (b.reports ++ pushedBy (q, (b.serve capacity q).1)) := by
  cases q with
  | push r => exact List.drop_sublist ..
  | take => simpa [serve, pushedBy] using b.reports.dropLast_sublist
  | takeAll => exact List.nil_sublist _
  | _ => simp [serve, pushedBy]

/-- What there was and what comes in is what goes out, what is dropped and what remains. -/
theorem perm_serve (capacity : ℕ) (b : BoundedQueue) (q : Request) :
    let exchange := (q, (b.serve capacity q).1)
    let b' := (b.serve capacity q).2
    (b.reports ++ b.dropped ++ pushedBy exchange).Perm
      (poppedBy exchange ++ drainedBy exchange ++ b'.dropped ++ b'.reports) := by
  refine List.perm_iff_count.mpr fun a => ?_
  cases q with
  | push r =>
    have hsplit := congrArg (List.count a)
      (List.take_append_drop ((b.reports ++ [r]).length - capacity) (b.reports ++ [r]))
    simp only [serve, pushedBy, poppedBy, drainedBy, List.count_append, List.count_nil] at hsplit ⊢
    omega
  | take =>
    rcases List.eq_nil_or_concat b.reports with hreports | ⟨rest, r, hreports⟩
    · simp [serve, pushedBy, poppedBy, drainedBy, hreports]
    · simp [serve, pushedBy, poppedBy, drainedBy, hreports, List.count_cons]; omega
  | takeAll => simp [serve, pushedBy, poppedBy, drainedBy]
  | _ => simp [serve, pushedBy, poppedBy, drainedBy]; omega

theorem length_serveAll_le (hb : b.reports.length ≤ capacity) (requests : List Request) :
    (b.serveAll capacity requests).2.reports.length ≤ capacity := by
  induction requests generalizing b with
  | nil => exact hb
  | cons q rest ih => exact ih (length_serve_le hb q)

theorem sublist_serveAll (capacity : ℕ) (b : BoundedQueue) (requests : List Request) :
    (b.serveAll capacity requests).2.reports.Sublist
      (b.reports ++ (b.serveAll capacity requests).1.flatMap pushedBy) := by
  induction requests generalizing b with
  | nil => simp [serveAll]
  | cons q rest ih =>
    rw [serveAll, List.flatMap_cons, ← List.append_assoc]
    exact (ih _).trans ((sublist_serve capacity b q).append_right _)

/-- **No report is lost without a trace.** -/
theorem perm_serveAll (capacity : ℕ) (b : BoundedQueue) (requests : List Request) :
    let exchanges := (b.serveAll capacity requests).1
    let b' := (b.serveAll capacity requests).2
    (b.reports ++ b.dropped ++ exchanges.flatMap pushedBy).Perm
      (exchanges.flatMap poppedBy ++ exchanges.flatMap drainedBy ++ b'.dropped ++ b'.reports) := by
  induction requests generalizing b with
  | nil => simpa [serveAll] using List.perm_append_comm
  | cons q rest ih =>
    have hfirst := List.perm_iff_count.mp (perm_serve capacity b q)
    have hrest := List.perm_iff_count.mp (ih (b.serve capacity q).2)
    refine List.perm_iff_count.mpr fun a => ?_
    have hfirst := hfirst a
    have hrest := hrest a
    simp only [serveAll, List.flatMap_cons, List.count_append] at hfirst hrest ⊢
    omega

end BoundedQueue

/-! ### Refinement -/

/-- What is about a given owner. -/
def ofOwner {α : Type} (owner : Handle) (xs : List (Handle × α)) : List α :=
  xs.filterMap fun x => if x.1 = owner then some x.2 else none

theorem ofOwner_cons {α : Type} (owner o : Handle) (a : α) (xs : List (Handle × α)) :
    ofOwner owner ((o, a) :: xs) =
      if o = owner then a :: ofOwner owner xs else ofOwner owner xs := by
  by_cases ho : o = owner <;> simp [ofOwner, ho]

namespace Vm

/-- The queue of an owner, with what it dropped. -/
def boundedQueue (vm : Vm σ) (owner : Handle) : BoundedQueue :=
  ⟨vm.diagnostics.queue owner, vm.droppedFrom owner⟩

theorem capacity_serve (vm : Vm σ) (owner : Handle) (q : Request) :
    (vm.serve owner q).2.diagnostics.capacity = vm.diagnostics.capacity := by
  cases q <;> rfl

theorem capacity_serveAll (vm : Vm σ) (requests : List (Handle × Request)) :
    (vm.serveAll requests).2.diagnostics.capacity = vm.diagnostics.capacity := by
  induction requests generalizing vm with
  | nil => rfl
  | cons request rest ih => exact (ih _).trans (vm.capacity_serve _ _)

/-- A request is served as by a single bounded queue, if the queue is no longer than it may be: the
machine compares its length with the capacity for equality, and would let a longer one grow. -/
theorem serve_self (hcap : 0 < vm.diagnostics.capacity)
    (hlen : (vm.diagnostics.queue owner).length ≤ vm.diagnostics.capacity) (q : Request) :
    ((vm.serve owner q).1, (vm.serve owner q).2.boundedQueue owner) =
      (vm.boundedQueue owner).serve vm.diagnostics.capacity q := by
  cases q with
  | push r =>
    have hqueue := vm.diagnostics.queue_push_self owner r
    have hdropped := vm.droppedFrom_push owner owner r
    rw [if_pos rfl, Diagnostics.evicted?] at hdropped
    rw [BoundedQueue.serve_push hcap hlen]
    simp only [serve, boundedQueue, diagnostics_push]
    rw [hqueue, hdropped]
    by_cases hfull : (vm.diagnostics.queue owner).length = vm.diagnostics.capacity <;> simp [hfull]
  | take => simp [serve, boundedQueue, BoundedQueue.serve, Diagnostics.latest?, droppedFrom]
  | takeAll => simp [serve, boundedQueue, BoundedQueue.serve, droppedFrom]
  | _ => rfl

/-- Queues of others are served by leaving this one alone. -/
theorem serve_of_ne (vm : Vm σ) {o : Handle} (hne : o ≠ owner) (q : Request) :
    (vm.serve o q).2.boundedQueue owner = vm.boundedQueue owner := by
  have hqueue : (vm.serve o q).2.diagnostics.queue owner = vm.diagnostics.queue owner := by
    rw [diagnostics_serve]
    refine Change.queue_apply_of_ne ?_ _
    cases q <;> simp [Request.change, Change.owner?, hne]
  have hdropped : (vm.serve o q).2.droppedFrom owner = vm.droppedFrom owner := by
    cases q with
    | push r => simp [serve, droppedFrom_push, hne]
    | _ => rfl
  rw [boundedQueue, hqueue, hdropped, boundedQueue]

/-- What is replied about an owner depends on the queue of the owner only. -/
theorem reply_of_queue_eq {vm vm' : Vm σ}
    (hqueue : vm'.diagnostics.queue owner = vm.diagnostics.queue owner) (q : Request) :
    (vm'.serve owner q).1 = (vm.serve owner q).1 := by
  cases q <;> simp [serve, Diagnostics.latest?, Diagnostics.pending, Diagnostics.toJson, hqueue]

/-- The requests about an owner are served as by a single bounded queue, whatever is asked about
others in between. -/
theorem serveAll_ofOwner (vm : Vm σ) (hcap : 0 < vm.diagnostics.capacity)
    (hlen : (vm.diagnostics.queue owner).length ≤ vm.diagnostics.capacity)
    (requests : List (Handle × Request)) :
    (ofOwner owner (vm.serveAll requests).1, (vm.serveAll requests).2.boundedQueue owner) =
      (vm.boundedQueue owner).serveAll vm.diagnostics.capacity (ofOwner owner requests) := by
  induction requests generalizing vm with
  | nil => rfl
  | cons request rest ih =>
    obtain ⟨o, q⟩ := request
    have hcap' : 0 < (vm.serve o q).2.diagnostics.capacity := by rwa [capacity_serve]
    have hqueue : ((vm.serve o q).2.diagnostics.queue owner).length ≤
        (vm.serve o q).2.diagnostics.capacity := by
      rw [capacity_serve]
      by_cases ho : o = owner
      · subst ho
        have hserved := congrArg (fun x => x.2.reports) (vm.serve_self hcap hlen q)
        exact (congrArg List.length hserved).trans_le (BoundedQueue.length_serve_le hlen q)
      · have hserved := congrArg BoundedQueue.reports (vm.serve_of_ne ho q)
        exact (congrArg List.length hserved).trans_le hlen
    have hrest := ih _ hcap' hqueue
    rw [capacity_serve] at hrest
    simp only [serveAll, ofOwner_cons]
    by_cases ho : o = owner
    · subst ho
      rw [if_pos rfl, if_pos rfl, BoundedQueue.serveAll, ← vm.serve_self hcap hlen q]
      dsimp only
      rw [← hrest]
    · rw [if_neg ho, if_neg ho, hrest, vm.serve_of_ne ho q]

/-- A report that is pushed is the latest, and a full queue drops its oldest one for it. -/
theorem serve_push (vm : Vm σ) (owner : Handle) (hcap : 0 < vm.diagnostics.capacity)
    (hlen : (vm.diagnostics.queue owner).length ≤ vm.diagnostics.capacity) (r : Report) :
    let pushed := (vm.serve owner (.push r)).2
    (pushed.serve owner .latest).1 = .report (some r) ∧
      ((vm.diagnostics.queue owner).length < vm.diagnostics.capacity →
        pushed.boundedQueue owner =
          ⟨vm.diagnostics.queue owner ++ [r], vm.droppedFrom owner⟩) ∧
      ((vm.diagnostics.queue owner).length = vm.diagnostics.capacity →
        ∃ oldest rest, vm.diagnostics.queue owner = oldest :: rest ∧
          pushed.boundedQueue owner = ⟨rest ++ [r], vm.droppedFrom owner ++ [oldest]⟩) := by
  have hserved := congrArg Prod.snd (vm.serve_self hcap hlen (.push r))
  rw [BoundedQueue.serve_push hcap hlen] at hserved
  refine ⟨congrArg Reply.report (vm.diagnostics.latest?_push owner r),
    fun hroom => hserved.trans (if_neg hroom.ne), fun hfull => ?_⟩
  obtain ⟨oldest, rest, hqueue⟩ := List.exists_cons_of_length_pos (hfull ▸ hcap)
  refine ⟨oldest, rest, hqueue, (hserved.trans (if_pos hfull)).trans ?_⟩
  simp [boundedQueue, hqueue]

end Vm

/-- **Queues of reports.** In any machine, to serve a request is to do what is done about reports
through an open scope of the owner or by the host. Let any number of owners make requests, in any
order, of a machine whose queues have room for `options.maxDiagnostics` reports, or for one if that
is zero. Then for each owner

* the replies, the queue and the reports that the journal says it dropped are those of a single
  bounded queue that serves the requests of this owner alone;
* the queue never outgrows its capacity, and it is a subsequence of the reports that were pushed;
* the reports that were pushed are those that were popped, drained or dropped, and those that are
  still there;
* a push makes its report the latest one. It drops the oldest report if the queue is full, and the
  journal has an event for that, and otherwise it drops none;
* looking at the latest report changes nothing and shows what the next pop takes;
* draining gives all reports, the oldest first, and leaves nothing for the next time;
* the dump has an object for each report that draining gives, in the same order, with the data of
  that report, and changes nothing;
* requests about other owners change neither the queue nor what it replies. -/
theorem queues_refine (options : Options) (memory : σ) (requests : List (Handle × Request))
    (owner : Handle) :
    let capacity := max options.maxDiagnostics.toNat 1
    let exchanges := ofOwner owner ((Vm.new options memory).serveAll requests).1
    let vm := ((Vm.new options memory).serveAll requests).2
    let queue := vm.diagnostics.queue owner
    (∀ (any : Vm σ) id scope q, any.scopes.get? id = some scope →
      any.serve scope.module q = q.perform any id scope) ∧
    (exchanges, vm.boundedQueue owner) =
        BoundedQueue.serveAll capacity ⟨[], []⟩ (ofOwner owner requests) ∧
    queue.length ≤ capacity ∧ queue.Sublist (exchanges.flatMap pushedBy) ∧
    (exchanges.flatMap pushedBy).Perm
      (exchanges.flatMap poppedBy ++ exchanges.flatMap drainedBy ++ vm.droppedFrom owner ++
        queue) ∧
    (∀ r, let pushed := (vm.serve owner (.push r)).2
      (pushed.serve owner .latest).1 = .report (some r) ∧
        (queue.length < capacity →
          pushed.boundedQueue owner = ⟨queue ++ [r], vm.droppedFrom owner⟩) ∧
        (queue.length = capacity → ∃ oldest rest, queue = oldest :: rest ∧
          pushed.boundedQueue owner = ⟨rest ++ [r], vm.droppedFrom owner ++ [oldest]⟩)) ∧
    vm.serve owner .latest = ((vm.serve owner .take).1, vm) ∧
    ((vm.serve owner .takeAll).1 = .reports queue ∧
      ((vm.serve owner .takeAll).2.serve owner .takeAll).1 = .reports [] ∧
      ((vm.serve owner .takeAll).2.serve owner .takeAll).2.boundedQueue owner =
        (vm.serve owner .takeAll).2.boundedQueue owner) ∧
    (∃ items, vm.serve owner .dump = (.data (.array items), vm) ∧
      List.Forall₂ Report.RenderedBy queue items) ∧
    ∀ other q, other ≠ owner →
      (vm.serve other q).2.boundedQueue owner = vm.boundedQueue owner ∧
      ∀ q', ((vm.serve other q).2.serve owner q').1 = (vm.serve owner q').1 := by
  intro capacity exchanges vm queue
  have hcap : 0 < capacity := Nat.lt_of_lt_of_le Nat.one_pos (Nat.le_max_right _ _)
  have hcapacity : vm.diagnostics.capacity = capacity := Vm.capacity_serveAll _ requests
  have hrefine : (exchanges, vm.boundedQueue owner) =
      BoundedQueue.serveAll capacity ⟨[], []⟩ (ofOwner owner requests) :=
    Vm.serveAll_ofOwner (Vm.new options memory) hcap (Nat.zero_le _) requests
  obtain ⟨hexchanges, hqueue⟩ := Prod.mk.inj hrefine
  have hlen : queue.length ≤ capacity := by
    have hempty : (⟨[], []⟩ : BoundedQueue).reports.length ≤ capacity := Nat.zero_le _
    have hbound := BoundedQueue.length_serveAll_le hempty (ofOwner owner requests)
    rwa [← hqueue] at hbound
  have hsublist := BoundedQueue.sublist_serveAll capacity ⟨[], []⟩ (ofOwner owner requests)
  have hperm := BoundedQueue.perm_serveAll capacity ⟨[], []⟩ (ofOwner owner requests)
  rw [← hrefine] at hsublist hperm
  refine ⟨fun any id scope q hid => Vm.serve_eq_perform hid q, hrefine, hlen, hsublist, hperm,
    fun r => ?_, rfl, ⟨rfl, ?_, ?_⟩, ⟨queue.map Report.toJson, rfl, ?_⟩,
    fun other q hne => ⟨vm.serve_of_ne hne q, fun q' => ?_⟩⟩
  · have hpush := vm.serve_push owner (hcapacity ▸ hcap) (hcapacity ▸ hlen) r
    rwa [hcapacity] at hpush
  · simp [Vm.serve]
  · simp [Vm.serve, Vm.boundedQueue, Vm.droppedFrom]
  · exact List.forall₂_map_right_iff.mpr (List.forall₂_same.mpr fun r _ => r.renderedBy_toJson)
  · exact Vm.reply_of_queue_eq (congrArg BoundedQueue.reports (vm.serve_of_ne hne q)) q'

end NativeBridge
