import NativeBridge.Diagnostics.Report
import NativeBridge.Dict

/-!
# Queues of reports

Each module owns a queue of the reports that its operations raised, in the order in which they
were detected. A queue has a fixed capacity: a report that comes to a full queue drops the oldest
one. Owners never see each other's reports.
-/

namespace NativeBridge

/-- Bounded queues of reports, one for each owner. -/
structure Diagnostics where
  /-- How many reports a queue holds at most. -/
  capacity : Nat
  /-- The queues, each with its oldest report in front. -/
  queues : Dict Handle (List Report)

namespace Diagnostics

/-- Empty queues of a given capacity, which is at least one report. -/
def ofCapacity (n : Nat) : Diagnostics := ⟨max n 1, .empty⟩

/-- The reports of an owner, oldest first. -/
def queue (d : Diagnostics) (owner : Handle) : List Report := (d.queues.get? owner).getD []

/-- Replaces the queue of an owner. -/
def setQueue (d : Diagnostics) (owner : Handle) (q : List Report) : Diagnostics :=
  { d with queues := d.queues.set owner q }

/-- The report that the next one for this owner drops. -/
def evicted? (d : Diagnostics) (owner : Handle) : Option Report :=
  if (d.queue owner).length = d.capacity then (d.queue owner).head? else none

/-- Adds a report as the owner's latest and drops the oldest one of a full queue. -/
def push (d : Diagnostics) (owner : Handle) (r : Report) : Diagnostics :=
  let q := d.queue owner
  d.setQueue owner ((if q.length = d.capacity then q.tail else q) ++ [r])

/-- The owner's latest report. -/
def latest? (d : Diagnostics) (owner : Handle) : Option Report := (d.queue owner).getLast?

/-- Drops the owner's latest report. -/
def pop (d : Diagnostics) (owner : Handle) : Diagnostics :=
  d.setQueue owner (d.queue owner).dropLast

/-- Drops every report of the owner. -/
def clear (d : Diagnostics) (owner : Handle) : Diagnostics := d.setQueue owner []

/-- The number of reports of an owner. -/
def pending (d : Diagnostics) (owner : Handle) : Nat := (d.queue owner).length

/-- The data of the reports of an owner, oldest first. -/
def toJson (d : Diagnostics) (owner : Handle) : Json :=
  .array ((d.queue owner).map Report.toJson)

@[simp] theorem queue_ofCapacity (n : Nat) (owner : Handle) :
    (ofCapacity n).queue owner = [] := rfl

@[simp] theorem queue_setQueue (d : Diagnostics) (owner o : Handle) (q : List Report) :
    (d.setQueue owner q).queue o = if o = owner then q else d.queue o := by
  simp only [queue, setQueue, Dict.get?_set]
  split <;> rfl

@[simp] theorem capacity_setQueue (d : Diagnostics) (owner : Handle) (q : List Report) :
    (d.setQueue owner q).capacity = d.capacity := rfl

theorem queue_push_self (d : Diagnostics) (owner : Handle) (r : Report) :
    (d.push owner r).queue owner =
      (if (d.queue owner).length = d.capacity then (d.queue owner).tail else d.queue owner) ++
        [r] := by
  simp [push]

@[simp] theorem latest?_push (d : Diagnostics) (owner : Handle) (r : Report) :
    (d.push owner r).latest? owner = some r := by
  simp [latest?, queue_push_self]

theorem queue_push_of_ne (d : Diagnostics) {owner o : Handle} (h : o ≠ owner) (r : Report) :
    (d.push owner r).queue o = d.queue o := by
  simp [push, h]

@[simp] theorem queue_pop (d : Diagnostics) (owner o : Handle) :
    (d.pop owner).queue o = if o = owner then (d.queue owner).dropLast else d.queue o :=
  queue_setQueue ..

@[simp] theorem queue_clear (d : Diagnostics) (owner o : Handle) :
    (d.clear owner).queue o = if o = owner then [] else d.queue o :=
  queue_setQueue ..

end Diagnostics

end NativeBridge
