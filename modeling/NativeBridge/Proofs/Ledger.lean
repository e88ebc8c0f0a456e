import NativeBridge.Proofs.Accounting
import NativeBridge.Proofs.Machine.HeapLog
import NativeBridge.Proofs.Protection

/-!
# The ledger of blocks

Whoever reads the heap log can keep a *ledger*, with the size of each block that is live. An entry
that does not agree with the ledger is refused (`Ledger.post`). The ledger of a machine is never
refused an entry, and it is at every moment what the machine holds (`heap_log_accounts`).

The simulation goes move by move: where a ledger agrees with the blocks of some holdings
(`Ledger.Tracks`), it accepts what a move tells, and then it agrees with the blocks after the move
(`Ledger.Tracks.apply`). The counters of the heap agree with it, since they are exact.
-/

namespace NativeBridge

open Handle.Table (Addressable)

variable {σ : Type} {x : Holdings σ}

/-! ### Ledgers -/

/-- The sum of a weight over all entries. -/
def Dict.total {κ α : Type} (d : Dict κ α) (w : α → ℕ) : ℕ :=
  d.entries.foldr (fun e n => w e.2 + n) 0

/-- Blocks with their sizes. -/
abbrev Ledger := Dict Handle UInt64

namespace Ledger

/-- Posts an event. A block is new when it is allocated; when it is resized or freed, it is in the
ledger with the size that the event tells. An event that does not agree is refused. -/
def post (l : Ledger) : Event → Option Ledger
  | .blockAllocated block size => if l.contains block then none else some (l.set block size)
  | .blockResized block oldSize newSize =>
    if l.get? block = some oldSize then some (l.set block newSize) else none
  | .blockFreed block size => if l.get? block = some size then some (l.erase block) else none
  | _ => some l

/-- Posts events in order. -/
def replay (l : Ledger) (events : List Event) : Option Ledger := events.foldlM post l

/-- The slots that all blocks have together. -/
def slots (l : Ledger) : ℕ := l.total UInt64.toNat

theorem replay_append (l : Ledger) (es fs : List Event) :
    l.replay (es ++ fs) = (l.replay es).bind fun l' => l'.replay fs := List.foldlM_append

theorem replay_singleton (l : Ledger) (e : Event) : l.replay [e] = l.post e := by
  simp [replay]

theorem post_blockAllocated {l : Ledger} {block : Handle} (hnew : l.get? block = none)
    (size : UInt64) : l.post (.blockAllocated block size) = some (l.set block size) := by
  simp [post, Dict.contains, hnew]

theorem post_blockResized {l : Ledger} {block : Handle} {oldSize : UInt64}
    (hold : l.get? block = some oldSize) (newSize : UInt64) :
    l.post (.blockResized block oldSize newSize) = some (l.set block newSize) := if_pos hold

theorem post_blockFreed {l : Ledger} {block : Handle} {size : UInt64}
    (hold : l.get? block = some size) : l.post (.blockFreed block size) = some (l.erase block) :=
  if_pos hold

end Ledger

/-! ### Sizes of blocks -/

/-- The size of an object that is a block. -/
def Object.size? : Object σ → Option UInt64
  | .block b => some b.size
  | _ => none

/-- The size of the block that `h` addresses. -/
def Holdings.size? (x : Holdings σ) (h : Handle) : Option UInt64 :=
  (x.table.get? h).bind Object.size?

theorem Holdings.size?_of_block {h : Handle} {b : Heap.Block}
    (hb : x.table.get? h = some (.block b)) : x.size? h = some b.size := by
  rw [size?, hb]
  rfl

theorem Holdings.size?_of_not_issued (hs : x.table.Sound) {h : Handle}
    (hnew : ¬ x.table.Issued h) : x.size? h = none := by
  refine Option.bind_eq_none_iff.mpr fun o ho => ?_
  exact absurd (Handle.Table.issued_of_get? hs ho) hnew

/-- A size is what a block of so many cells has, in a machine whose counters are exact. -/
theorem Holdings.size?_eq_some_iff (hx : Balanced x) {h : Handle} {n : UInt64} :
    x.size? h = some n ↔ ∃ b, x.table.get? h = some (.block b) ∧ b.cells.size = n.toNat := by
  rw [size?, Option.bind_eq_some_iff]
  constructor
  · rintro ⟨o, ho, hsize⟩
    cases o with
    | block b =>
      cases hsize
      exact ⟨b, ho, (hx.slots_le ho).2.symm⟩
    | _ => cases hsize
  · rintro ⟨b, hb, hsize⟩
    refine ⟨_, hb, congrArg some (UInt64.toNat_inj.mp ?_)⟩
    rw [(hx.slots_le hb).2, hsize]

namespace Move

theorem size?_alloc (hs : x.table.Sound) {size : UInt64}
    (hf : (apply x (.alloc size)).table.Addressable) (k : Handle) :
    (apply x (.alloc size)).size? k =
      if k = (x.table.insert (.block (.ofSize size))).1 then some size else x.size? k := by
  rw [Holdings.size?, get?_alloc hs hf]
  split
  · simp [Object.size?]
  · rfl

theorem size?_free (hs : x.table.Sound) (h k : Handle) :
    (apply x (.free h)).size? k = if k = h then none else x.size? k := by
  rw [Holdings.size?, get?_free hs]
  split <;> rfl

theorem size?_resize {h : Handle} {b : Heap.Block} (hb : x.table.get? h = some (.block b))
    (size : UInt64) (k : Handle) :
    (apply x (.resize h size)).size? k = if k = h then some size else x.size? k := by
  rw [Holdings.size?, get?_resize hb]
  split
  · simp [Object.size?]
  · rfl

/-- An edit that keeps the size of a block keeps all sizes. -/
theorem size?_edit {h : Handle} {b : Heap.Block} (hb : x.table.get? h = some (.block b))
    {f : Heap.Block → Heap.Block} (hsize : (f b).size = b.size) (k : Handle) :
    ((x.table.replay (edit x.table h f)).get? k).bind Object.size? = x.size? k := by
  rw [get?_edit hb]
  split
  · next hk => rw [hk, Holdings.size?_of_block hb, ← hsize]; rfl
  · rfl

/-- Other moves leave it as it is which blocks there are, and of what sizes. -/
theorem size?_of_not_onHeap {m : Move σ} (hs : x.table.Sound) (hm : m.Allowed x)
    (hf : (m.apply x).table.Addressable) (hon : ¬ m.OnHeap) (k : Handle) :
    (m.apply x).size? k = x.size? k := by
  have hnew : ∀ n, ¬ x.table.Issued n → k = n → none = x.size? k := by
    intro n hn hk
    rw [hk, Holdings.size?_of_not_issued hs hn]
  cases m with
  | alloc size => exact absurd trivial hon
  | free h => exact absurd trivial hon
  | resize h size => exact absurd trivial hon
  | mint id s =>
    rw [Holdings.size?, get?_mint hs hf]
    split
    · next hk => exact hnew _ (Handle.Table.not_issued_insert hs hf) hk
    · rfl
  | release h =>
    obtain ⟨s, hg⟩ := hm
    rw [Holdings.size?, get?_release hs]
    split
    · next hk => rw [Holdings.size?, hk, hg]; rfl
    · rfl
  | write h offset value =>
    obtain ⟨-, b, c, hb, -⟩ := hm
    exact size?_edit hb (b.size_modifyCell offset _) k
  | protect h offset p =>
    obtain ⟨b, c, hb, -⟩ := hm
    exact size?_edit hb (b.size_modifyCell offset _) k
  | createModule name =>
    obtain ⟨hmodule, hinit, -, -, hget⟩ := get?_createModule hs hf
    rw [Holdings.size?, hget]
    split
    · next hk => exact hnew _ hmodule hk
    · split
      · next hk => exact hnew _ hinit hk
      · rfl
  | addFunction module name argc body =>
    obtain ⟨-, md, hmd, -⟩ := hm
    obtain ⟨hfunction, -, hget⟩ := get?_addFunction hs hmd hf
    rw [Holdings.size?, hget]
    split
    · next hk => rw [Holdings.size?, hk, hmd]; rfl
    · split
      · next hk => exact hnew _ hfunction hk
      · rfl
  | openScope site => rfl
  | closeScope id => rfl

end Move

namespace Ledger

/-- The ledger has the blocks that there are, with their sizes. -/
structure Tracks (l : Ledger) (x : Holdings σ) : Prop where
  nodup : l.keys.Nodup
  get?_eq : ∀ k, l.get? k = x.size? k

namespace Tracks

variable {l : Ledger}

/-- **Posting a move.** A ledger that agrees with the blocks accepts what a move tells, and agrees
with the blocks after the move. -/
theorem apply {m : Move σ} (hl : l.Tracks x) (hs : x.table.Sound) (hm : m.Allowed x)
    (hf : (m.apply x).table.Addressable) :
    ∃ l', l.replay (m.event? x).toList = some l' ∧ l'.Tracks (m.apply x) := by
  by_cases hon : m.OnHeap
  · cases m with
    | alloc size =>
      have hnew : l.get? (x.table.insert (.block (.ofSize size))).1 = none := by
        rw [hl.get?_eq, Holdings.size?_of_not_issued hs (Handle.Table.not_issued_insert hs hf)]
      refine ⟨_, (replay_singleton _ _).trans (post_blockAllocated hnew size),
        Dict.nodup_keys_set hl.nodup _ _, fun k => ?_⟩
      rw [Dict.get?_set, Move.size?_alloc hs hf, hl.get?_eq]
    | free h =>
      obtain ⟨b, hb⟩ := hm
      have hold : l.get? h = some b.size := (hl.get?_eq h).trans (Holdings.size?_of_block hb)
      rw [Move.event?_free hb]
      refine ⟨_, (replay_singleton _ _).trans (post_blockFreed hold),
        Dict.nodup_keys_erase hl.nodup _, fun k => ?_⟩
      rw [Dict.get?_erase, Move.size?_free hs, hl.get?_eq]
    | resize h size =>
      obtain ⟨-, b, hb, -⟩ := hm
      have hold : l.get? h = some b.size := (hl.get?_eq h).trans (Holdings.size?_of_block hb)
      rw [Move.event?_resize hb]
      refine ⟨_, (replay_singleton _ _).trans (post_blockResized hold size),
        Dict.nodup_keys_set hl.nodup _ _, fun k => ?_⟩
      rw [Dict.get?_set, Move.size?_resize hb, hl.get?_eq]
    | _ => cases hon
  · rw [Move.event?_eq_none x hon]
    refine ⟨l, rfl, hl.nodup, fun k => ?_⟩
    rw [hl.get?_eq, Move.size?_of_not_onHeap hs hm hf hon]

/-- Ledgers follow moves, as they follow single ones. -/
theorem after {ms : List (Move σ)} (hl : l.Tracks x) (hs : x.table.Sound) (hm : Moves x ms)
    (hf : (x.after ms).table.Addressable) :
    ∃ l', l.replay (x.events ms) = some l' ∧ l'.Tracks (x.after ms) := by
  induction ms generalizing x l with
  | nil => exact ⟨l, rfl, hl⟩
  | cons m ms ih =>
    have hf' := Holdings.addressable_of_after (x := m.apply x) hf
    obtain ⟨l₁, hfirst, hl₁⟩ := hl.apply hs hm.1 hf'
    obtain ⟨l₂, hrest, hl₂⟩ := ih hl₁ (Handle.Table.sound_replay hs hf') hm.2 hf
    refine ⟨l₂, ?_, hl₂⟩
    rw [Holdings.events, replay_append, hfirst]
    exact hrest

end Tracks

end Ledger

/-! ### Counters -/

theorem Dict.total_one {κ α : Type} (d : Dict κ α) : (d.total fun _ => 1) = d.size := by
  obtain ⟨entries⟩ := d
  induction entries with
  | nil => rfl
  | cons e rest ih => exact (Nat.add_comm 1 _).trans (congrArg (· + 1) ih)

/-- Where every key has one entry, the sum over the entries is the sum over all keys. -/
theorem Dict.sum_get? {α : Type} {d : Dict Handle α} (hd : d.keys.Nodup) (w : α → ℕ) :
    ∑ k, (d.get? k).elim 0 w = d.total w := by
  obtain ⟨entries⟩ := d
  induction entries with
  | nil => simp [get?, total]
  | cons e rest ih =>
    obtain ⟨k₀, a⟩ := e
    rw [keys, List.map_cons, List.nodup_cons] at hd
    have hnone : (Dict.mk rest).get? k₀ = none := lookup_eq_none_iff.mpr hd.1
    have hself : (Dict.mk ((k₀, a) :: rest)).get? k₀ = some a := by simp [get?]
    have hothers : ∀ k, k ≠ k₀ →
        ((Dict.mk ((k₀, a) :: rest)).get? k).elim 0 w = ((Dict.mk rest).get? k).elim 0 w := by
      intro k hk
      simp [get?, List.lookup_cons, beq_eq_false_iff_ne.mpr hk]
    have hsum := Handle.sum_eq_of_eq_off k₀ hothers
    rw [hnone, hself, ih hd.2] at hsum
    simp only [Option.elim_none, Option.elim_some, Nat.add_zero] at hsum
    exact hsum.trans (Nat.add_comm _ _)

namespace Ledger.Tracks

variable {l : Ledger}

/-- The total of a weight of blocks is the total of the weights of the entries. -/
theorem total_eq (hl : l.Tracks x) {w : Object σ → ℕ} {v : UInt64 → ℕ}
    (hw : ∀ h o, x.table.get? h = some o → w o = o.size?.elim 0 v) :
    x.table.total w = l.total v := by
  rw [← Dict.sum_get? hl.nodup, Handle.Table.total]
  refine Finset.sum_congr rfl fun k _ => ?_
  rw [hl.get?_eq, Holdings.size?]
  cases hk : x.table.get? k with
  | none => rfl
  | some o => exact hw k o hk

theorem total_blocks (hl : l.Tracks x) : x.table.total Object.blocks = l.size := by
  rw [← Dict.total_one]
  refine hl.total_eq fun h o _ => ?_
  cases o <;> rfl

theorem total_slots (hl : l.Tracks x) (hx : Balanced x) :
    x.table.total Object.slots = l.slots := by
  refine hl.total_eq fun h o ho => ?_
  cases o with
  | block b => exact (hx.slots_le ho).2.symm
  | _ => rfl

end Ledger.Tracks

/-! ### The ledger of a machine -/

/-- The handle of the block that an event says to be new. -/
def Event.allocated? : Event → Option Handle
  | blockAllocated block _ => some block
  | _ => none

/-- The ledger is what the heap log of the machine leads to, from an empty one on and without an
entry that is refused. It has the live blocks with their present lengths, and the counters of the
heap are the number of its entries and the sum of their sizes. -/
structure Vm.AccountedBy (vm : Vm σ) (l : Ledger) : Prop where
  replay : Ledger.replay .empty vm.heapLog = some l
  nodup : l.keys.Nodup
  blocks : ∀ k n, l.get? k = some n ↔ ∃ b, vm.block k = .ok b ∧ b.cells.size = n.toNat
  live : vm.heap.liveBlocks.toNat = l.size
  used : vm.heap.usedSlots.toNat = l.slots

/-- A block that is allocated has a handle that was never issued before. -/
theorem Move.allocated_of_event? {m : Move σ} (hs : x.table.Sound)
    (hf : (m.apply x).table.Addressable) {k : Handle}
    (hk : (m.event? x).bind Event.allocated? = some k) :
    ¬ x.table.Issued k ∧ (m.apply x).table.Issued k := by
  cases m with
  | alloc size =>
    cases hk
    have hissued := (Handle.Table.issued_insert hs hf _).mpr (.inl rfl)
    exact ⟨Handle.Table.not_issued_insert hs hf, hissued⟩
  | free h =>
    rw [event?] at hk
    split at hk <;> cases hk
  | resize h size =>
    rw [event?] at hk
    split at hk <;> cases hk
  | _ => cases hk

/-- Moves allocate no block twice, nor one that there was before. -/
theorem Moves.nodup_allocated {ms : List (Move σ)} (hs : x.table.Sound)
    (hf : (x.after ms).table.Addressable) :
    ((x.events ms).filterMap Event.allocated?).Nodup ∧
      ∀ k ∈ (x.events ms).filterMap Event.allocated?, ¬ x.table.Issued k := by
  induction ms generalizing x with
  | nil => exact ⟨List.nodup_nil, fun k hk => nomatch hk⟩
  | cons m ms ih =>
    have hf' := Holdings.addressable_of_after (x := m.apply x) hf
    obtain ⟨hnodup, hnew⟩ := ih (Handle.Table.sound_replay hs hf') hf
    have hold : ∀ k ∈ ((m.apply x).events ms).filterMap Event.allocated?, ¬ x.table.Issued k :=
      fun k hk hissued => hnew k hk (Handle.Table.issued_replay hs hf' hissued)
    have hsplit : (x.events (m :: ms)).filterMap Event.allocated? =
        ((m.event? x).bind Event.allocated?).toList ++
          ((m.apply x).events ms).filterMap Event.allocated? := by
      rw [Holdings.events, List.filterMap_append]
      cases m.event? x with
      | none => rfl
      | some e => cases e <;> rfl
    rw [hsplit]
    cases hk : (m.event? x).bind Event.allocated? with
    | none => exact ⟨hnodup, hold⟩
    | some k =>
      obtain ⟨hfresh, hissued⟩ := Move.allocated_of_event? hs hf' hk
      refine ⟨List.nodup_cons.mpr ⟨fun hmem => hnew k hmem hissued, hnodup⟩, fun j hj => ?_⟩
      rcases List.mem_cons.mp hj with rfl | hj
      · exact hfresh
      · exact hold j hj

namespace Steps

variable {options : Options} {memory : σ} {steps : List (Step σ)} {vm : Vm σ}

theorem heapLog_of_new (h : Steps (Vm.new options memory) steps vm) :
    vm.heapLog = (Vm.new options memory).holdings.events (movesOf steps) := by
  rw [h.heapLog_eq, Vm.heapLog_new, List.nil_append]

/-- **Faithfulness.** The heap log of a history accounts for the machine at its end. -/
theorem accountedBy (h : Steps (Vm.new options memory) steps vm) (hf : vm.table.Addressable) :
    ∃ l, vm.AccountedBy l := by
  have hs := Vm.sound_new options memory
  have hx := h.balanced hf
  have hstart : Ledger.Tracks .empty (Vm.new options memory).holdings :=
    ⟨List.nodup_nil, fun k => by simp [Holdings.size?, Vm.new]⟩
  have hf' : ((Vm.new options memory).holdings.after (movesOf steps)).table.Addressable := by
    rwa [← h.holdings_eq]
  obtain ⟨l, hreplay, hl⟩ := hstart.after hs (h.moves hs hf) hf'
  rw [← h.heapLog_of_new] at hreplay
  rw [← h.holdings_eq] at hl
  refine ⟨l, hreplay, hl.nodup, fun k n => ?_, hx.live.trans hl.total_blocks,
    hx.used.trans (hl.total_slots hx)⟩
  rw [hl.get?_eq, Holdings.size?_eq_some_iff hx]
  simp only [Vm.block_eq_ok, Vm.table_holdings]

end Steps

/-- **The heap log is a faithful journal.** Whoever keeps a ledger of the blocks by the heap log of
a machine, from an empty one on, knows the heap of the machine:

* no entry is ever refused, and the ledger has the live blocks with their present lengths and agrees
  with the counters of the heap;
* so it is at every earlier moment, and every part of the heap log from its beginning is the heap
  log of such a moment;
* the blocks that are allocated all have different handles;
* an act tells one event if it is an allocation, a resize or a free that succeeds. All other acts
  leave the heap log as it is: what fails, releases, the closing of scopes, and what a call records
  of its beginning, its result or its fault;
* what the log says about an event determines the event. -/
theorem heap_log_accounts {options : Options} {memory : σ} {steps : List (Step σ)} {vm : Vm σ}
    (h : Steps (Vm.new options memory) steps vm) (hf : vm.table.Addressable) :
    (∃ l, vm.AccountedBy l) ∧
    (∀ s ∈ steps, ∃ l, s.before.AccountedBy l) ∧
    (∀ log, log <+: vm.heapLog → ∃ past later mid l, steps = past ++ later ∧
      Steps (Vm.new options memory) past mid ∧ mid.heapLog = log ∧ mid.AccountedBy l) ∧
    (vm.heapLog.filterMap Event.allocated?).Nodup ∧
    (∀ s ∈ steps, (s.act.perform s.before).heapLog = s.before.heapLog ++ s.told?.toList) ∧
    ∀ e ∈ vm.heapLog, ∀ e', e'.logLine? = e.logLine? → e' = e := by
  have hs := Vm.sound_new options memory
  refine ⟨h.accountedBy hf, fun s hmem => ?_, fun log hlog => ?_, ?_, fun s hmem => ?_,
    fun e he e' hline => ?_⟩
  · obtain ⟨past, later, rfl⟩ := List.append_of_mem hmem
    have hmid := h.reached_at rfl
    exact hmid.accountedBy (hmid.addressable_at h hf)
  · obtain ⟨past, later, mid, rfl, hmid, heq⟩ := h.exists_heapLog_eq List.nil_prefix hlog
    obtain ⟨l, hl⟩ := hmid.accountedBy (hmid.addressable_at h hf)
    exact ⟨past, later, mid, l, rfl, hmid, heq, hl⟩
  · rw [h.heapLog_of_new]
    refine (Moves.nodup_allocated hs ?_).1
    rwa [← h.holdings_eq]
  · exact h.heapLog_step hmem
  · exact Event.eq_of_logLine?_eq (List.mem_filter.mp he).2 hline

/-- After the tour, the block grows, a scalar is released, the block is freed twice, and another
block takes its slot. -/
def ledgerTour : Vm Unit :=
  midTour.performAll
    [resizeTour 4, .host (.release (.ofParts 2 2)), .within ⟨0⟩ (.free tourBlock),
      .within ⟨0⟩ (.free tourBlock), .within ⟨0⟩ (.alloc 3)]

/-- The log tells four events. Before the block is freed it has four cells by the ledger, and in the
end there is the other block only. -/
theorem heap_log_accounts_ledgerTour :
    ∃ steps, Steps (.new .default ()) steps ledgerTour ∧ ledgerTour.table.Addressable ∧
      ledgerTour.heapLog = [.blockAllocated tourBlock 2, .blockResized tourBlock 2 4,
        .blockFreed tourBlock 4, .blockAllocated (.ofParts 3 2) 3] ∧
      (∃ l, ledgerTour.AccountedBy l ∧ l.entries = [(.ofParts 3 2, 3)]) ∧
      ∃ past later mid l, steps = past ++ later ∧ Steps (.new .default ()) past mid ∧
        mid.AccountedBy l ∧ l.entries = [(tourBlock, 4)] := by
  obtain ⟨past, hpast⟩ := steps_midTour
  have hlater : Steps midTour _ ledgerTour := Vm.steps_performAll midTour (by decide +kernel)
  have h := hpast.trans hlater
  have hf : ledgerTour.table.Addressable := by
    unfold Addressable
    decide +kernel
  have hlog : ledgerTour.heapLog = [.blockAllocated tourBlock 2, .blockResized tourBlock 2 4,
      .blockFreed tourBlock 4, .blockAllocated (.ofParts 3 2) 3] := by decide +kernel
  obtain ⟨⟨l, hl⟩, -, hmoments, -⟩ := heap_log_accounts h hf
  obtain ⟨past', later, mid, l', hsplit, hmid, hmidlog, hl'⟩ := hmoments
    [.blockAllocated tourBlock 2, .blockResized tourBlock 2 4] (hlog ▸ by simp)
  have hend := hl.replay
  have hbefore := hl'.replay
  rw [hlog] at hend
  rw [hmidlog] at hbefore
  cases hend
  cases hbefore
  exact ⟨_, h, hf, hlog, ⟨_, hl, rfl⟩, past', later, mid, _, hsplit, hmid, hl', rfl⟩

end NativeBridge
