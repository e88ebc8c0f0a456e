import NativeBridge.Proofs.Machine.Object
import NativeBridge.Proofs.Machine.Operation

/-!
# Cells under moves

A machine's heap, seen from outside, maps handles of blocks and offsets to cells
(`Holdings.cell?`). One equation says what a move does to one cell (`Move.cell?_apply`): the cell
is changed by a write to it and by its protection, and it is gone when its block is freed or
resized to a size without it. Hence what a cell holds stays there as long as all moves spare it
(`Moves.value_after`). The other way round, what a cell holds was there before or was written to it
(`Moves.content_before`).
-/

namespace NativeBridge

open Handle.Table (Addressable Sound)

variable {σ : Type} {x : Holdings σ} {b : Handle} {i : UInt64}

/-- The cell at an offset of the block that a handle addresses. -/
def Holdings.cell? (x : Holdings σ) (b : Handle) (i : UInt64) : Option Heap.Cell :=
  match x.table.get? b with
  | some (.block blk) => blk.cell? i
  | _ => none

theorem Holdings.cell?_eq_some {c : Heap.Cell} : x.cell? b i = some c ↔
    ∃ blk, x.table.get? b = some (.block blk) ∧ blk.cell? i = some c := by
  unfold cell?
  constructor
  · intro hc
    split at hc
    · next blk hb => exact ⟨blk, hb, hc⟩
    · cases hc
  · rintro ⟨blk, hb, hc⟩
    rw [hb]
    exact hc

/-- The cells of a block are those of the object that its handle addresses. -/
theorem Holdings.cell?_of_block {blk : Heap.Block} (hb : x.table.get? b = some (.block blk))
    (i : UInt64) : x.cell? b i = blk.cell? i := by
  rw [cell?, hb]

theorem Vm.cell_of_cell?_holdings {vm : Vm σ} {c : Heap.Cell}
    (hc : vm.holdings.cell? b i = some c) : ∃ blk, vm.cell b i = .ok (blk, c) := by
  obtain ⟨blk, hb⟩ := Holdings.cell?_eq_some.mp hc
  exact ⟨blk, cell_eq_ok.mpr hb⟩

namespace Move

/-- What a move makes of the cell at offset `i` of the block that `b` addresses. -/
def onCell (b : Handle) (i : UInt64) (c : Heap.Cell) : Move σ → Option Heap.Cell
  | free k => if k = b then none else some c
  | resize k n => if k = b ∧ ¬ i < n then none else some c
  | write k offset v => some (if k = b ∧ offset = i then { c with value := v } else c)
  | protect k offset p => some (if k = b ∧ offset = i then { c with protection := p } else c)
  | _ => some c

/-- A cell of a block that is edited. -/
theorem cell?_edit {y : Holdings σ} {k : Handle} {old : Heap.Block}
    (hk : x.table.get? k = some (.block old)) {f : Heap.Block → Heap.Block}
    (hy : y.table = x.table.replay (edit x.table k f)) (b : Handle) (i : UInt64) :
    y.cell? b i = if k = b then (f old).cell? i else x.cell? b i := by
  have hget := get?_edit hk f b
  rw [← hy] at hget
  by_cases hkb : k = b
  · rw [if_pos hkb.symm] at hget
    rw [if_pos hkb, Holdings.cell?_of_block hget]
  · rw [if_neg (Ne.symm hkb)] at hget
    rw [if_neg hkb, Holdings.cell?, hget, Holdings.cell?]

/-- A cell of a block of which one cell is changed. -/
theorem cell?_edit_cell {y : Holdings σ} {k : Handle} {old : Heap.Block}
    (hk : x.table.get? k = some (.block old)) {offset : UInt64} {f : Heap.Cell → Heap.Cell}
    (hy : y.table = x.table.replay (edit x.table k fun b => b.modifyCell offset f))
    {c : Heap.Cell} (hc : x.cell? b i = some c) :
    y.cell? b i = some (if k = b ∧ offset = i then f c else c) := by
  rw [cell?_edit hk hy]
  by_cases hkb : k = b
  · rw [if_pos hkb, Heap.Block.cell?_modifyCell]
    rw [← hkb, Holdings.cell?_of_block hk] at hc
    by_cases hi : i = offset
    · rw [if_pos hi, if_pos ⟨hkb, hi.symm⟩, hc, Option.map_some]
    · rw [if_neg hi, if_neg fun h => hi h.2.symm, hc]
  · rw [if_neg hkb, if_neg fun h => hkb h.1, hc]

/-- **Cells.** What a move makes of a cell. -/
theorem cell?_apply {m : Move σ} (hs : x.table.Sound) (hm : m.Allowed x)
    (hf : (m.apply x).table.Addressable) {c : Heap.Cell} (hc : x.cell? b i = some c) :
    (m.apply x).cell? b i = m.onCell b i c := by
  obtain ⟨blk, hb, hblk⟩ := Holdings.cell?_eq_some.mp hc
  have hissued := Handle.Table.issued_of_get? hs hb
  have hkept : (m.apply x).table.get? b = x.table.get? b → (m.apply x).cell? b i = some c :=
    fun he => by rw [← hc, Holdings.cell?, he, Holdings.cell?]
  cases m with
  | mint id s =>
    have hne := Handle.Table.ne_of_issued hissued (Handle.Table.not_issued_insert hs hf)
    exact hkept ((get?_mint hs hf b).trans (if_neg hne))
  | alloc size =>
    have hne := Handle.Table.ne_of_issued hissued (Handle.Table.not_issued_insert hs hf)
    exact hkept ((get?_alloc hs hf b).trans (if_neg hne))
  | release k =>
    -- what is released is a scalar, and `b` addresses a block
    obtain ⟨s, hk⟩ := hm
    have hne : b ≠ k := fun e => by rw [← e, hb] at hk; cases hk
    exact hkept ((get?_release hs k b).trans (if_neg hne))
  | free k =>
    by_cases hk : k = b
    · have hnone := (get?_free hs k b).trans (if_pos hk.symm)
      rw [onCell, if_pos hk, Holdings.cell?, hnone]
    · rw [onCell, if_neg hk]
      exact hkept ((get?_free hs k b).trans (if_neg (Ne.symm hk)))
  | resize k n =>
    obtain ⟨-, old, hold, -⟩ := hm
    rw [cell?_edit hold rfl, onCell]
    by_cases hk : k = b
    · obtain rfl : blk = old := by rw [hk, hb] at hold; cases hold; rfl
      by_cases hi : i < n <;> simp [hk, hi, Heap.Block.cell?_resize, hblk]
    · simp [hk, hc]
  | write k offset v =>
    obtain ⟨-, old, -, hold, -⟩ := hm
    exact cell?_edit_cell (f := fun c => { c with value := v }) hold rfl hc
  | protect k offset p =>
    obtain ⟨old, -, hold, -⟩ := hm
    exact cell?_edit_cell (f := fun c => { c with protection := p }) hold rfl hc
  | createModule name =>
    obtain ⟨hnew, hinit, -, -, hget⟩ := get?_createModule hs hf
    refine hkept ((hget b).trans ?_)
    rw [if_neg (Handle.Table.ne_of_issued hissued hnew),
      if_neg (Handle.Table.ne_of_issued hissued hinit)]
  | addFunction module name argc body =>
    obtain ⟨-, md, hmd, -⟩ := hm
    obtain ⟨hnew, -, hget⟩ := get?_addFunction hs hmd hf
    have hne : b ≠ module := fun e => by rw [← e, hb] at hmd; cases hmd
    refine hkept ((hget b).trans ?_)
    rw [if_neg hne, if_neg (Handle.Table.ne_of_issued hissued hnew)]
  | openScope site => exact hkept rfl
  | closeScope id => exact hkept rfl

/-- The move neither writes to the cell nor takes it away. -/
def Spares (b : Handle) (i : UInt64) : Move σ → Prop
  | free k => k ≠ b
  | resize k n => k = b → i < n
  | write k offset _ => k = b → offset ≠ i
  | _ => True

/-- A cell that is spared holds what it held. -/
theorem value_onCell {m : Move σ} (hm : m.Spares b i) (c : Heap.Cell) :
    (m.onCell b i c).map Heap.Cell.value = some c.value := by
  cases m with
  | free k => rw [onCell, if_neg hm]; rfl
  | resize k n =>
    have hkept : ¬ (k = b ∧ ¬ i < n) := fun h => h.2 (hm h.1)
    rw [onCell, if_neg hkept]
    rfl
  | write k offset v =>
    have hother : ¬ (k = b ∧ offset = i) := fun h => hm h.1 h.2
    rw [onCell, if_neg hother]
    rfl
  | protect k offset p =>
    rw [onCell]
    split <;> rfl
  | _ => rfl

end Move

/-- **Contents.** What a cell holds stays there as long as all moves spare it. -/
theorem Moves.value_after {ms : List (Move σ)} (hm : Moves x ms) (hs : x.table.Sound)
    (hf : (x.after ms).table.Addressable) (hspare : ∀ m ∈ ms, m.Spares b i) {v : Option Value}
    (hv : (x.cell? b i).map Heap.Cell.value = some v) :
    ((x.after ms).cell? b i).map Heap.Cell.value = some v := by
  induction ms generalizing x with
  | nil => exact hv
  | cons m ms ih =>
    have hf' := Holdings.addressable_of_after (x := m.apply x) hf
    obtain ⟨c, hc, hcv⟩ := Option.map_eq_some_iff.mp hv
    refine ih hm.2 (Handle.Table.sound_replay hs hf') hf
      (fun m' hm' => hspare m' (List.mem_cons_of_mem _ hm')) ?_
    rw [Move.cell?_apply hs hm.1 hf' hc, Move.value_onCell (hspare m List.mem_cons_self), hcv]

/-! ### Where contents come from -/

/-- What the cell at an offset of the block that a handle addresses holds, if there is such a cell
and it is not empty. -/
def Holdings.content? (x : Holdings σ) (b : Handle) (i : UInt64) : Option Value :=
  (x.cell? b i).bind Heap.Cell.value

theorem Holdings.content?_congr {y : Holdings σ} (he : y.table.get? b = x.table.get? b) :
    y.content? b i = x.content? b i := by
  rw [content?, cell?, he, content?, cell?]

theorem Holdings.content?_of_block {blk : Heap.Block}
    (hb : x.table.get? b = some (.block blk)) :
    x.content? b i = (blk.cell? i).bind Heap.Cell.value := by
  rw [content?, cell?_of_block hb]

/-- Only blocks have contents. -/
theorem Holdings.content?_of_not_block (hb : ∀ blk, x.table.get? b ≠ some (.block blk)) :
    x.content? b i = none := by
  rw [content?, Option.bind_eq_none_iff]
  intro c hc
  obtain ⟨blk, hblk, -⟩ := cell?_eq_some.mp hc
  exact absurd hblk (hb blk)

/-- A resized block holds what it held. -/
theorem Heap.Block.value_resize {blk : Heap.Block} {n : UInt64} {v : Value}
    (hv : ((blk.resize n).cell? i).bind Heap.Cell.value = some v) :
    (blk.cell? i).bind Heap.Cell.value = some v := by
  rw [cell?_resize] at hv
  split at hv
  · cases hc : blk.cell? i with
    | none =>
      -- the cell is new, and therefore empty
      rw [hc] at hv
      cases hv
    | some c =>
      rw [hc] at hv
      exact hv
  · cases hv

namespace Move

/-- Where one cell of a block is changed, contents were there before or come from the change. -/
theorem content_edit_cell {y : Holdings σ} {k : Handle} {old : Heap.Block}
    (hk : x.table.get? k = some (.block old)) {offset : UInt64} {f : Heap.Cell → Heap.Cell}
    (hy : y.table = x.table.replay (edit x.table k fun b => b.modifyCell offset f)) {v : Value}
    (hv : y.content? b i = some v) :
    x.content? b i = some v ∨
      k = b ∧ offset = i ∧ ∃ c, x.cell? b i = some c ∧ (f c).value = some v := by
  rw [Holdings.content?, cell?_edit hk hy] at hv
  split at hv
  · next hkb =>
    have hcell := Holdings.cell?_of_block (hkb ▸ hk) i
    rw [Heap.Block.cell?_modifyCell, ← hcell] at hv
    split at hv
    · next hi =>
      obtain ⟨c', hc', hcv⟩ := Option.bind_eq_some_iff.mp hv
      obtain ⟨c, hc, rfl⟩ := Option.map_eq_some_iff.mp hc'
      exact .inr ⟨hkb, hi.symm, c, hc, hcv⟩
    · exact .inl hv
  · exact .inl hv

/-- **Origins.** What a cell holds after a move was there before, unless it is what the move
writes. -/
theorem content_before {m : Move σ} (hs : x.table.Sound) (hm : m.Allowed x)
    (hf : (m.apply x).table.Addressable) {v : Value} (hv : (m.apply x).content? b i = some v) :
    x.content? b i = some v ∨ m = .write b i (some v) := by
  have hkept : (m.apply x).table.get? b = x.table.get? b → x.content? b i = some v :=
    fun he => (Holdings.content?_congr he).symm.trans hv
  -- and `b` addresses a block, since it has contents
  have hblock : (∀ blk, (m.apply x).table.get? b ≠ some (.block blk)) → False := fun hnb => by
    rw [Holdings.content?_of_not_block hnb] at hv
    cases hv
  cases m with
  | mint id s =>
    have hget := get?_mint hs hf b
    split at hget
    · exact (hblock fun _ h => nomatch hget.symm.trans h).elim
    · exact .inl (hkept hget)
  | alloc size =>
    have hget := get?_alloc hs hf b
    split at hget
    · rw [Holdings.content?_of_block hget, Heap.Block.cell?_ofSize] at hv
      split at hv <;> cases hv
    · exact .inl (hkept hget)
  | release k =>
    have hget := get?_release hs k b
    split at hget
    · exact (hblock fun _ h => nomatch hget.symm.trans h).elim
    · exact .inl (hkept hget)
  | free k =>
    have hget := get?_free hs k b
    split at hget
    · exact (hblock fun _ h => nomatch hget.symm.trans h).elim
    · exact .inl (hkept hget)
  | resize k n =>
    obtain ⟨-, old, hold, -⟩ := hm
    rw [Holdings.content?, cell?_edit hold rfl] at hv
    split at hv
    · next hk =>
      rw [Holdings.content?_of_block (hk ▸ hold)]
      exact .inl (Heap.Block.value_resize hv)
    · exact .inl hv
  | write k offset w =>
    obtain ⟨-, old, -, hold, -⟩ := hm
    rcases content_edit_cell (f := fun c => { c with value := w }) hold rfl hv with
      hbefore | ⟨rfl, rfl, c, -, hw⟩
    · exact .inl hbefore
    · obtain rfl : w = some v := hw
      exact .inr rfl
  | protect k offset p =>
    obtain ⟨old, -, hold, -⟩ := hm
    rcases content_edit_cell (f := fun c => { c with protection := p }) hold rfl hv with
      hbefore | ⟨-, -, c, hc, hcv⟩
    · exact .inl hbefore
    · exact .inl (Option.bind_eq_some_iff.mpr ⟨c, hc, hcv⟩)
  | createModule name =>
    obtain ⟨-, -, -, -, hget⟩ := get?_createModule hs hf
    have hgetb := hget b
    split at hgetb
    · exact (hblock fun _ h => nomatch hgetb.symm.trans h).elim
    · split at hgetb
      · exact (hblock fun _ h => nomatch hgetb.symm.trans h).elim
      · exact .inl (hkept hgetb)
  | addFunction module name argc body =>
    obtain ⟨-, md, hmd, -⟩ := hm
    obtain ⟨-, -, hget⟩ := get?_addFunction hs hmd hf
    have hgetb := hget b
    split at hgetb
    · exact (hblock fun _ h => nomatch hgetb.symm.trans h).elim
    · split at hgetb
      · exact (hblock fun _ h => nomatch hgetb.symm.trans h).elim
      · exact .inl (hkept hgetb)
  | openScope site => exact .inl (hkept rfl)
  | closeScope id => exact .inl (hkept rfl)

end Move

/-- What a cell holds after moves was there before, or one of them wrote it. -/
theorem Moves.content_before {ms : List (Move σ)} (hm : Moves x ms) (hs : x.table.Sound)
    (hf : (x.after ms).table.Addressable) {v : Value} (hv : (x.after ms).content? b i = some v) :
    x.content? b i = some v ∨ .write b i (some v) ∈ ms := by
  induction ms generalizing x with
  | nil => exact .inl hv
  | cons m ms ih =>
    have hf' := Holdings.addressable_of_after (x := m.apply x) hf
    rcases ih hm.2 (Handle.Table.sound_replay hs hf') hf hv with hbefore | hmem
    · exact (Move.content_before hs hm.1 hf' hbefore).imp id fun e =>
        List.mem_cons.mpr (.inl e.symm)
    · exact .inr (List.mem_cons_of_mem _ hmem)

end NativeBridge
