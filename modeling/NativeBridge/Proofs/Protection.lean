import NativeBridge.Proofs.Machine.Cell
import NativeBridge.Proofs.Machine.Run

/-!
# The protection of cells

The protection of a cell is set by the host. Nothing that programs do through their scopes takes it
away as long as the cell is there: the cell keeps its protection, and its value if it is protected
against writes (`protection_kept`).

A cell is gone when its block is resized to a size that does not include it. If the block grows
again later, the new cell at the same offset is empty and has no protection, whatever the old one
had.
-/

namespace NativeBridge

open Handle.Table (Addressable Sound)

variable {σ : Type}

/-- The cell at offset `i` of the block that `b` addresses, if it addresses any, has the protection
`p`, and it holds `v` if it is protected against writes. -/
def Guarded (b : Handle) (i : UInt64) (p : Heap.Protection) (v : Option Value) (x : Holdings σ) :
    Prop :=
  ∀ blk, x.table.get? b = some (.block blk) →
    ∃ c, blk.cell? i = some c ∧ c.protection = p ∧ (p.write = true → c.value = v)

namespace Guarded

variable {x : Holdings σ} {b : Handle} {i : UInt64} {p : Heap.Protection} {v : Option Value}

/-- A move that does not protect the cell, and does not resize the block to a size without it,
leaves the cell guarded. -/
theorem apply {m : Move σ} (hs : x.table.Sound) (hm : m.Allowed x)
    (hf : (m.apply x).table.Addressable) (hissued : x.table.Issued b) (hx : Guarded b i p v x)
    (hprotect : ∀ q, m ≠ .protect b i q) (hsize : ∀ n, m = .resize b n → n = 0 ∨ i < n) :
    Guarded b i p v (m.apply x) := by
  intro blk hblk
  -- the block was a block before, so the cell was there
  obtain ⟨a, ha, hbecomes⟩ := Move.object_before hs hm hf hissued hblk
  obtain ⟨old, rfl⟩ := Object.Becomes.eq_block hbecomes
  obtain ⟨c, hc, hprot, hval⟩ := hx old ha
  have hcell := Move.cell?_apply hs hm hf (Holdings.cell?_eq_some.mpr ⟨old, ha, hc⟩)
  rw [Holdings.cell?_of_block hblk] at hcell
  rw [hcell]
  cases m with
  | free k =>
    have hk : k ≠ b := fun hk => by
      rw [Move.get?_free hs, if_pos hk.symm] at hblk
      cases hblk
    rw [Move.onCell, if_neg hk]
    exact ⟨c, rfl, hprot, hval⟩
  | resize k n =>
    have hkept : ¬ (k = b ∧ ¬ i < n) := by
      rintro ⟨rfl, hcut⟩
      exact hcut ((hsize n rfl).resolve_left hm.1)
    rw [Move.onCell, if_neg hkept]
    exact ⟨c, rfl, hprot, hval⟩
  | write k offset value =>
    refine ⟨_, rfl, ?_⟩
    split
    · next hthere =>
      -- the write went through, so the cell is not protected against writes
      obtain ⟨rfl, rfl⟩ := hthere
      obtain ⟨-, blk', c', hblk', hc', hopen⟩ := hm
      cases ha.symm.trans hblk'
      cases hc.symm.trans hc'
      exact ⟨hprot, fun hw => by rw [← hprot, hopen] at hw; cases hw⟩
    · exact ⟨hprot, hval⟩
  | protect k offset q =>
    have helsewhere : ¬ (k = b ∧ offset = i) := by
      rintro ⟨rfl, rfl⟩
      exact hprotect q rfl
    rw [Move.onCell, if_neg helsewhere]
    exact ⟨c, rfl, hprot, hval⟩
  | _ => exact ⟨c, rfl, hprot, hval⟩

theorem after {ms : List (Move σ)} (hs : x.table.Sound) (hm : Moves x ms)
    (hf : (x.after ms).table.Addressable) (hissued : x.table.Issued b) (hx : Guarded b i p v x)
    (hprotect : ∀ q, Move.protect b i q ∉ ms)
    (hsize : ∀ n, Move.resize b n ∈ ms → n = 0 ∨ i < n) :
    Guarded b i p v (x.after ms) := by
  induction ms generalizing x with
  | nil => exact hx
  | cons m ms ih =>
    have hf' := Holdings.addressable_of_after (x := m.apply x) hf
    refine ih (Handle.Table.sound_replay hs hf') hm.2 hf (Handle.Table.issued_replay hs hf' hissued)
      ?_ (fun q hq => hprotect q (List.mem_cons_of_mem _ hq))
      fun n hn => hsize n (List.mem_cons_of_mem _ hn)
    exact hx.apply hs hm.1 hf' hissued (fun q hq => hprotect q (hq ▸ List.mem_cons_self))
      fun n hn => hsize n (hn ▸ List.mem_cons_self)

end Guarded

namespace Vm

variable {vm : Vm σ} {b : Handle} {i : UInt64} {blk : Heap.Block} {c : Heap.Cell}

/-- A read of a cell is refused exactly if the cell is protected against reads. -/
theorem read_security_iff (hcell : vm.cell b i = .ok (blk, c)) :
    (∃ fault, vm.read b i = .error (.security fault)) ↔ c.protection.read = true := by
  simp only [read, hcell]
  split <;> simp_all

/-- A write to a cell is refused exactly if the cell is protected against writes, when there is
something to write. -/
theorem write_security_iff (hcell : vm.cell b i = .ok (blk, c)) {k : Handle}
    (hk : vm.value? k ≠ none) :
    (∃ fault, vm.write b i k = .error (.security fault)) ↔ c.protection.write = true := by
  have hstore : ∀ v, (∃ fault, vm.store b i v = .error (.security fault)) ↔
      c.protection.write = true := by
    intro v
    simp only [store, hcell]
    split <;> simp_all
  unfold write
  split
  · next hnone => exact absurd hnone hk
  · exact hstore none
  · exact hstore (some _)

/-- A cell that the host has just protected is guarded. -/
theorem guarded_protect (hs : vm.table.Sound) (hcell : vm.cell b i = .ok (blk, c))
    {p : Heap.Protection} {mid : Vm σ} (hset : vm.protect b i p = .ok mid) :
    Guarded b i p c.value mid.holdings ∧ mid.table.Issued b := by
  obtain ⟨hb, hc⟩ := cell_eq_ok.mp hcell
  have hget : mid.table.get? b =
      some (.block (blk.modifyCell i fun c => { c with protection := p })) := by
    rw [← table_holdings, holdings_protect hset]
    exact (Move.get?_protect (x := vm.holdings) hb i p b).trans (if_pos rfl)
  have hsmid : mid.table.Sound := by
    obtain ⟨_, _, _, _, rfl⟩ := protect_eq_ok.mp hset
    exact Handle.Table.sound_set hs b _
  refine ⟨fun blk' hblk' => ?_, Handle.Table.issued_of_get? hsmid hget⟩
  cases hget.symm.trans hblk'
  rw [Heap.Block.cell?_modifyCell, if_pos rfl, hc]
  exact ⟨_, rfl, rfl, fun _ => rfl⟩

end Vm

/-- **Protection is kept.** Once the host has protected a cell, programs cannot take the protection
away while the cell is there. As long as the host does not protect the cell anew and the block is
not resized to a size without it, the cell keeps its protection: reads and writes are refused
exactly as the protection says, and under a protection against writes the value stays. -/
theorem protection_kept {options : Options} {memory : σ} {past later : List (Step σ)}
    {vm mid vm' : Vm σ} {b : Handle} {i : UInt64} {p : Heap.Protection} {blk : Heap.Block}
    {c : Heap.Cell} (hpast : Steps (Vm.new options memory) past vm)
    (hcell : vm.cell b i = .ok (blk, c)) (hset : vm.protect b i p = .ok mid)
    (h : Steps (Vm.new options memory) (past ++ ⟨vm, .host (.protect b i p)⟩ :: later) vm')
    (hf : vm'.table.Addressable)
    (hprotect : ∀ s ∈ later, ∀ q, s.act ≠ .host (.protect b i q))
    (hsize : ∀ s ∈ later, ∀ id n, s.act = .within id (.resize b n) → n = 0 ∨ i < n)
    {blk' : Heap.Block} (hlive : vm'.block b = .ok blk') :
    ∃ c', vm'.cell b i = .ok (blk', c') ∧ c'.protection = p ∧
      (p.write = true → c'.value = c.value) ∧
      ((∃ fault, vm'.read b i = .error (.security fault)) ↔ p.read = true) ∧
      ∀ k, vm'.value? k ≠ none →
        ((∃ fault, vm'.write b i k = .error (.security fault)) ↔ p.write = true) := by
  have hs := Vm.sound_new options memory
  have hperform : Act.perform vm (.host (.protect b i p)) = mid := by
    simp [Act.perform, HostOp.perform, Vm.keepOnError, hset]
  have hmid : Steps (Vm.new options memory) (past ++ [⟨vm, .host (.protect b i p)⟩]) mid :=
    hperform ▸ hpast.snoc (.host (.protect b i p)) trivial
  obtain ⟨-, -, hsvm⟩ := Steps.rest hs hpast h hf
  rw [List.append_cons] at h
  obtain ⟨hend, hmoves, hsmid⟩ := Steps.rest hs hmid h hf
  obtain ⟨hguarded, hissued⟩ := Vm.guarded_protect hsvm hcell hset
  -- no later move takes the cell away or protects it anew, since no later step causes one
  have hguarded' : Guarded b i p c.value vm'.holdings := by
    rw [← Vm.table_holdings, hend] at hf
    rw [hend]
    refine hguarded.after hsmid hmoves hf hissued (fun q hq => ?_) fun n hn => ?_
    · obtain ⟨s, hlater, hq⟩ := List.mem_flatMap.mp hq
      exact hprotect s hlater q (Act.causedBy_of_mem hq)
    · obtain ⟨s, hlater, hn⟩ := List.mem_flatMap.mp hn
      obtain ⟨id, hid⟩ := Act.causedBy_of_mem hn
      exact hsize s hlater id n hid
  have hblk' := Vm.block_eq_ok.mp hlive
  obtain ⟨c', hc', hprot, hval⟩ := hguarded' blk' hblk'
  have hcell' : vm'.cell b i = .ok (blk', c') := Vm.cell_eq_ok.mpr ⟨hblk', hc'⟩
  exact ⟨c', hcell', hprot, hval, hprot ▸ Vm.read_security_iff hcell',
    fun k hk => hprot ▸ Vm.write_security_iff hcell' hk⟩

/-- The block of the tour. -/
def tourBlock : Handle := .ofParts 3 1

/-- The host protects the second cell of the block altogether. -/
def protectTour : Act Unit := .host (.protect tourBlock 1 .all)

/-- A program resizes the block. -/
def resizeTour (n : UInt64) : Act Unit := .within ⟨0⟩ (.resize tourBlock n)

/-- The protection of a cell, if it is there. -/
def Vm.protection? (vm : Vm σ) (b : Handle) (i : UInt64) : Option Heap.Protection :=
  (vm.cell b i).toOption.map fun found => found.2.protection

theorem Vm.protection?_eq_some {vm : Vm σ} {b : Handle} {i : UInt64} {p : Heap.Protection} :
    vm.protection? b i = some p ↔
      ∃ blk c, vm.cell b i = .ok (blk, c) ∧ c.protection = p := by
  unfold protection?
  rcases vm.cell b i with e | ⟨blk, c⟩ <;> simp [Except.toOption]

/-- The host may protect a cell that is there. -/
theorem Vm.protect_eq_perform {vm : Vm σ} {b : Handle} {i : UInt64} {blk : Heap.Block}
    {c : Heap.Cell} (hcell : vm.cell b i = .ok (blk, c)) (p : Heap.Protection) :
    vm.protect b i p = .ok (Act.perform vm (.host (.protect b i p))) := by
  simp [Act.perform, HostOp.perform, protect, hcell, keepOnError]

/-- When the block of the tour grows and shrinks again, but not below two cells, the second one
stays protected. -/
theorem protection_kept_midTour :
    ∃ fault, (midTour.performAll [protectTour, resizeTour 4, resizeTour 2]).read tourBlock 1 =
      .error (.security fault) := by
  obtain ⟨past, hpast⟩ := steps_midTour
  obtain ⟨blk, c, hcell, -⟩ := Vm.protection?_eq_some.mp
    (show midTour.protection? tourBlock 1 = some .writes by decide +kernel)
  have hlater : Steps midTour _ (midTour.performAll [protectTour, resizeTour 4, resizeTour 2]) :=
    Vm.steps_performAll midTour (by decide +kernel)
  obtain ⟨blk', c', hcell', -⟩ := Vm.protection?_eq_some.mp
    (show (midTour.performAll [protectTour, resizeTour 4, resizeTour 2]).protection? tourBlock 1 =
      some .all by decide +kernel)
  obtain ⟨-, -, -, -, hread, -⟩ := protection_kept hpast hcell (Vm.protect_eq_perform hcell .all)
    (hpast.trans hlater) (by unfold Addressable; decide +kernel) (by simp [Vm.stepsOf, resizeTour])
    (by simp [Vm.stepsOf, resizeTour]) (Vm.block_eq_ok.mpr (Vm.cell_eq_ok.mp hcell').1)
  exact hread.mpr rfl

/-- A cell loses its protection when the block is resized to a size without it and back. -/
theorem not_protection_kept_by_resizing :
    ¬ ∀ (past later : List (Step Unit)) (vm mid vm' : Vm Unit) (b : Handle) (i : UInt64)
      (p : Heap.Protection) (blk blk' : Heap.Block) (c c' : Heap.Cell),
      Steps (Vm.new .default ()) past vm → vm.cell b i = .ok (blk, c) →
      vm.protect b i p = .ok mid →
      Steps (Vm.new .default ()) (past ++ ⟨vm, .host (.protect b i p)⟩ :: later) vm' →
      vm'.table.Addressable →
      (∀ s ∈ later, ∀ k o q, s.act ≠ .host (.protect k o q)) →
      vm'.cell b i = .ok (blk', c') → c'.protection = p := by
  intro hkept
  obtain ⟨past, hpast⟩ := steps_midTour
  obtain ⟨blk, c, hcell, -⟩ := Vm.protection?_eq_some.mp
    (show midTour.protection? tourBlock 1 = some .writes by decide +kernel)
  have hlater : Steps midTour _ (midTour.performAll [protectTour, resizeTour 1, resizeTour 2]) :=
    Vm.steps_performAll midTour (by decide +kernel)
  obtain ⟨blk', c', hcell', hprot⟩ := Vm.protection?_eq_some.mp
    (show (midTour.performAll [protectTour, resizeTour 1, resizeTour 2]).protection? tourBlock 1 =
      some .none by decide +kernel)
  have hall := hkept past _ _ _ _ tourBlock 1 .all blk blk' c c' hpast hcell
    (Vm.protect_eq_perform hcell .all) (hpast.trans hlater) (by unfold Addressable; decide +kernel)
    (by simp [Vm.stepsOf, resizeTour]) hcell'
  rw [hprot] at hall
  exact absurd hall (by decide)

end NativeBridge
