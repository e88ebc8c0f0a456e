import NativeBridge.Proofs.Machine.Run
import NativeBridge.Proofs.Machine.Weight

/-!
# The accounts of the heap

The heap counters of a machine are machine words that are changed without a check for overflow.
They never overflow, because they are exact: the slots in use are the cells of all live blocks, and
these stay within the budget (`Balanced`). Hence allocation and growth succeed exactly if the
budget has room, in unbounded arithmetic (`heap_accounting`).
-/

namespace NativeBridge

open Handle.Table (Addressable Sound)

variable {σ : Type}

/-! ### Balance -/

namespace Object

/-- The number of slots that an object takes. -/
def slots : Object σ → ℕ
  | .block b => b.cells.size
  | _ => 0

/-- One for a block. -/
def blocks : Object σ → ℕ
  | .block _ => 1
  | _ => 0

theorem blocks_le_one (o : Object σ) : o.blocks ≤ 1 := by
  cases o <;> simp [blocks]

end Object

/-- The heap counters are exact and within the budget. -/
structure Balanced (x : Holdings σ) : Prop where
  used : x.heap.usedSlots.toNat = x.table.total Object.slots
  live : x.heap.liveBlocks.toNat = x.table.total Object.blocks
  within : x.heap.usedSlots.toNat ≤ x.budget.toNat

namespace Balanced

variable {x : Holdings σ}

/-- A live block has no more cells than there are slots in use. -/
theorem slots_le (hx : Balanced x) {h : Handle} {b : Heap.Block}
    (hb : x.table.get? h = some (.block b)) :
    b.cells.size ≤ x.heap.usedSlots.toNat ∧ b.size.toNat = b.cells.size := by
  have hle : b.cells.size ≤ x.heap.usedSlots.toNat := by
    rw [hx.used]
    exact Handle.Table.le_total hb Object.slots
  have hlt := x.heap.usedSlots.toNat_lt
  refine ⟨hle, ?_⟩
  rw [Heap.Block.size, UInt64.toNat_ofNat_of_lt' (Nat.lt_of_le_of_lt hle hlt)]

theorem one_le_liveBlocks (hx : Balanced x) {h : Handle} {b : Heap.Block}
    (hb : x.table.get? h = some (.block b)) : 1 ≤ x.heap.liveBlocks.toNat := by
  rw [hx.live]
  exact Handle.Table.le_total hb Object.blocks

/-- The number of live blocks has room for another one. -/
theorem liveBlocks_le (hx : Balanced x) (hs : x.table.Sound) (hf : x.table.Addressable) :
    x.heap.liveBlocks.toNat ≤ 2 ^ 32 := by
  rw [hx.live]
  exact Nat.le_trans (Handle.Table.total_le_size hs Object.blocks_le_one) hf

/-- What an allocation within the budget does to the counters. -/
theorem alloc_counters (hx : Balanced x) (hs : x.table.Sound) (hf : x.table.Addressable)
    {size : UInt64} (hroom : x.heap.usedSlots.toNat + size.toNat ≤ x.budget.toNat) :
    (x.heap.liveBlocks + 1).toNat = x.heap.liveBlocks.toNat + 1 ∧
      (x.heap.usedSlots + size).toNat = x.heap.usedSlots.toNat + size.toNat := by
  have hblocks := hx.liveBlocks_le hs hf
  have hbudget := x.budget.toNat_lt
  constructor
  · rw [UInt64.toNat_add, UInt64.toNat_one, Nat.mod_eq_of_lt (by omega)]
  · rw [UInt64.toNat_add, Nat.mod_eq_of_lt (by omega)]

/-- What the end of a block's life does to the counters. -/
theorem free_counters (hx : Balanced x) {h : Handle} {b : Heap.Block}
    (hb : x.table.get? h = some (.block b)) :
    (x.heap.liveBlocks - 1).toNat = x.heap.liveBlocks.toNat - 1 ∧
      (x.heap.usedSlots - b.size).toNat = x.heap.usedSlots.toNat - b.cells.size := by
  obtain ⟨hle, hsize⟩ := hx.slots_le hb
  have hone := hx.one_le_liveBlocks hb
  constructor
  · exact UInt64.toNat_sub_of_le _ _ (UInt64.le_iff_toNat_le.mpr hone)
  · rw [UInt64.toNat_sub_of_le _ _ (UInt64.le_iff_toNat_le.mpr (by omega)), hsize]

/-- The budget that a growth asks for is what a resize needs. -/
theorem resize_room (hx : Balanced x) {h : Handle} {b : Heap.Block}
    (hb : x.table.get? h = some (.block b)) (size : UInt64) :
    (b.size < size → x.heap.usedSlots.toNat + (size - b.size).toNat ≤ x.budget.toNat) ↔
      x.heap.usedSlots.toNat - b.cells.size + size.toNat ≤ x.budget.toNat := by
  obtain ⟨hle, hsize⟩ := hx.slots_le hb
  have hwithin := hx.within
  rw [UInt64.lt_iff_toNat_lt, hsize]
  constructor
  · intro hroom
    by_cases hlt : b.cells.size < size.toNat
    · have hgrow := hroom hlt
      rw [UInt64.toNat_sub_of_le _ _ (UInt64.le_iff_toNat_le.mpr (by omega)), hsize] at hgrow
      omega
    · omega
  · intro hroom hlt
    rw [UInt64.toNat_sub_of_le _ _ (UInt64.le_iff_toNat_le.mpr (by omega)), hsize]
    omega

/-- What a resize within the budget does to the counters. -/
theorem resize_counters (hx : Balanced x) {h : Handle} {b : Heap.Block}
    (hb : x.table.get? h = some (.block b)) {size : UInt64}
    (hroom : x.heap.usedSlots.toNat - b.cells.size + size.toNat ≤ x.budget.toNat) :
    (x.heap.usedSlots - b.size + size).toNat =
      x.heap.usedSlots.toNat - b.cells.size + size.toNat := by
  have hbudget := x.budget.toNat_lt
  rw [UInt64.toNat_add, (hx.free_counters hb).2, Nat.mod_eq_of_lt (by omega)]

/-- A move that neither adds nor removes slots keeps the balance. -/
theorem of_eq (hx : Balanced x) {y : Holdings σ} (hbudget : y.budget = x.budget)
    (hheap : y.heap = x.heap) (hslots : y.table.total Object.slots = x.table.total Object.slots)
    (hblocks : y.table.total Object.blocks = x.table.total Object.blocks) : Balanced y :=
  ⟨by rw [hheap, hslots, hx.used], by rw [hheap, hblocks, hx.live],
    by rw [hheap, hbudget]; exact hx.within⟩

/-- A cell may be changed in place. -/
theorem edit (hx : Balanced x) {y : Holdings σ} {h : Handle} {b : Heap.Block}
    (hb : x.table.get? h = some (.block b)) {offset : UInt64} {f : Heap.Cell → Heap.Cell}
    (hbudget : y.budget = x.budget) (hheap : y.heap = x.heap)
    (htable : y.table = x.table.replay (Move.edit x.table h fun b => b.modifyCell offset f)) :
    Balanced y := by
  have hslots := Move.total_edit hb (fun b => b.modifyCell offset f) Object.slots
  have hblocks := Move.total_edit hb (fun b => b.modifyCell offset f) Object.blocks
  rw [← htable] at hslots hblocks
  have hsize : (b.modifyCell offset f).cells.size = b.cells.size := by
    unfold Heap.Block.modifyCell
    split <;> simp
  simp only [Object.slots, hsize] at hslots
  simp only [Object.blocks] at hblocks
  exact hx.of_eq hbudget hheap (by omega) (by omega)

/-- **Balance.** Every move of a machine keeps the heap counters exact and within the budget. -/
theorem apply {m : Move σ} (hs : x.table.Sound) (hm : m.Allowed x)
    (hf : (m.apply x).table.Addressable) (hx : Balanced x) : Balanced (m.apply x) := by
  have hfx : x.table.Addressable := Addressable.of_replay (t := x.table) hf
  cases m with
  | mint id s =>
    exact hx.of_eq rfl rfl (Handle.Table.total_insert hs hf _) (Handle.Table.total_insert hs hf _)
  | release h =>
    obtain ⟨s, hg⟩ := hm
    exact hx.of_eq rfl rfl (Handle.Table.total_remove hs hg Object.slots)
      (Handle.Table.total_remove hs hg Object.blocks)
  | alloc size =>
    obtain ⟨hblocks, hused⟩ := hx.alloc_counters hs hfx hm
    have hslots := Handle.Table.total_insert hs hf Object.slots
    have hcount := Handle.Table.total_insert hs hf Object.blocks
    -- the condition of the move is the bound of the new count
    refine ⟨hused.trans ?_, hblocks.trans ?_, hused.trans_le hm⟩
    · rw [hx.used]
      exact (hslots.trans (by simp [Object.slots])).symm
    · rw [hx.live]
      exact hcount.symm
  | free h =>
    obtain ⟨b, hb⟩ := hm
    obtain ⟨hblocks, hused⟩ := hx.free_counters hb
    have hslots := Handle.Table.total_remove hs hb Object.slots
    have hcount := Handle.Table.total_remove hs hb Object.blocks
    have hheap : (Move.apply x (.free h)).heap =
        ⟨x.heap.liveBlocks - 1, x.heap.usedSlots - b.size⟩ := by
      simp [Move.apply, Move.heap, hb]
    simp only [Object.slots, ← hx.used] at hslots
    simp only [Object.blocks, ← hx.live] at hcount
    have hwithin := hx.within
    constructor
    · rw [hheap, hused]
      exact Nat.sub_eq_of_eq_add hslots.symm
    · rw [hheap, hblocks]
      exact Nat.sub_eq_of_eq_add hcount.symm
    · rw [hheap, hused]
      exact Nat.le_trans (Nat.sub_le _ _) hwithin
  | resize h size =>
    obtain ⟨-, b, hb, hgrow⟩ := hm
    -- the machine checks growth only; a block that shrinks has room in any case
    have hroom := (hx.resize_room hb size).mp hgrow
    have hle := (hx.slots_le hb).1
    have hslots := Move.total_edit hb (fun b => b.resize size) Object.slots
    have hcount := Move.total_edit hb (fun b => b.resize size) Object.blocks
    have hheap : (Move.apply x (.resize h size)).heap =
        ⟨x.heap.liveBlocks, x.heap.usedSlots - b.size + size⟩ := by
      simp [Move.apply, Move.heap, hb]
    simp only [Object.slots, Heap.Block.size_cells_resize, ← hx.used] at hslots
    simp only [Object.blocks, ← hx.live] at hcount
    constructor
    · have htotal : x.heap.usedSlots.toNat - b.cells.size + size.toNat =
          (x.table.replay (Move.edit x.table h fun b => b.resize size)).total Object.slots := by
        omega
      rw [hheap, hx.resize_counters hb hroom]
      exact htotal
    · rw [hheap]
      exact (Nat.add_right_cancel hcount).symm
    · rw [hheap, hx.resize_counters hb hroom]
      exact hroom
  | write h offset value =>
    obtain ⟨-, b, c, hb, -⟩ := hm
    exact hx.edit hb rfl rfl rfl
  | protect h offset p =>
    obtain ⟨b, c, hb, -⟩ := hm
    exact hx.edit hb rfl rfl rfl
  | createModule name =>
    exact hx.of_eq rfl rfl (Move.total_createModule hs hf _) (Move.total_createModule hs hf _)
  | addFunction module name argc body =>
    obtain ⟨-, md, hmd, -⟩ := hm
    exact hx.of_eq rfl rfl (Move.total_addFunction hs hmd hf Object.slots)
      (Move.total_addFunction hs hmd hf Object.blocks)
  | openScope site => exact hx.of_eq rfl rfl rfl rfl
  | closeScope id => exact hx.of_eq rfl rfl rfl rfl

end Balanced

theorem balanced_new (options : Options) (memory : σ) :
    Balanced (Vm.new options memory).holdings where
  used := (Handle.Table.total_empty _).symm
  live := (Handle.Table.total_empty _).symm
  within := Nat.zero_le _

theorem Steps.balanced {options : Options} {memory : σ} {steps : List (Step σ)} {vm : Vm σ}
    (h : Steps (Vm.new options memory) steps vm) (hf : vm.table.Addressable) :
    Balanced vm.holdings :=
  h.inv (Vm.sound_new options memory) hf (fun _ _ hs hm hf hx => hx.apply hs hm hf)
    (balanced_new options memory)

theorem Holdings.budget_after (x : Holdings σ) (ms : List (Move σ)) :
    (x.after ms).budget = x.budget := by
  induction ms generalizing x with
  | nil => rfl
  | cons m ms ih => exact ih _

/-- The budget is that of the options that the machine began with. -/
theorem Steps.budget_eq {options : Options} {memory : σ} {steps : List (Step σ)} {vm : Vm σ}
    (h : Steps (Vm.new options memory) steps vm) :
    vm.options.maxHeapSlots = options.maxHeapSlots := by
  rw [← Vm.budget_holdings, h.holdings_eq, Holdings.budget_after]
  rfl

/-! ### Allocation and growth -/

namespace Vm

theorem isSome_alloc {vm : Vm σ} (site : Site) (size : UInt64) :
    (vm.alloc site size).1.isSome = true ↔
      vm.heap.usedSlots.toNat + size.toNat ≤ vm.options.maxHeapSlots.toNat := by
  rw [← budgetAllows_iff]
  unfold alloc
  split <;> simp_all

/-- A block has a handle that is not null. -/
theorem isNull_eq_false {vm : Vm σ} {h : Handle} {b : Heap.Block} (hb : vm.block h = .ok b) :
    h.isNull = false := by
  rw [Bool.eq_false_iff, ne_eq, Handle.isNull_iff]
  rintro rfl
  simp [block, object?] at hb

theorem isSome_resize {vm : Vm σ} (hx : Balanced vm.holdings) (site : Site) {h : Handle}
    {b : Heap.Block} (hb : vm.block h = .ok b) {size : UInt64} (hsize : size ≠ 0) :
    (vm.resize site h size).1.isSome = true ↔
      vm.heap.usedSlots.toNat - b.cells.size + size.toNat ≤ vm.options.maxHeapSlots.toNat := by
  have hg := block_eq_ok.mp hb
  rw [← budget_holdings, ← heap_holdings, ← hx.resize_room hg size]
  simp only [resize, isNull_eq_false hb, hsize, if_false, Bool.false_eq_true, resizeBlock, hb,
    heap_holdings, budget_holdings, ← budgetAllows_iff]
  split <;> simp_all

/-- The counters after an allocation. -/
theorem heap_alloc {vm : Vm σ} {site : Site} {size : UInt64}
    (hsome : (vm.alloc site size).1.isSome = true) :
    (vm.alloc site size).2.heap = ⟨vm.heap.liveBlocks + 1, vm.heap.usedSlots + size⟩ := by
  unfold alloc at hsome ⊢
  split at hsome
  · next hroom => rw [if_pos hroom]; rfl
  · cases hsome

/-- The counters after the end of a block's life. -/
theorem heap_free {vm : Vm σ} (site : Site) {h : Handle} {b : Heap.Block}
    (hb : vm.block h = .ok b) :
    (vm.free site h).heap = ⟨vm.heap.liveBlocks - 1, vm.heap.usedSlots - b.size⟩ := by
  simp only [free, hb]
  rfl

/-- The counters after a resize. -/
theorem heap_resize {vm : Vm σ} {site : Site} {h : Handle} {b : Heap.Block}
    (hb : vm.block h = .ok b) {size : UInt64} (hsize : size ≠ 0)
    (hsome : (vm.resize site h size).1.isSome = true) :
    (vm.resize site h size).2.heap =
      ⟨vm.heap.liveBlocks, vm.heap.usedSlots - b.size + size⟩ := by
  simp only [resize, isNull_eq_false hb, hsize, if_false, Bool.false_eq_true, resizeBlock, hb]
    at hsome ⊢
  split at hsome
  · cases hsome
  · next hroom => rw [if_neg hroom]; rfl

end Vm

/-- **Accounts of the heap.** In every state that a machine reaches, whatever its budget:

* the slots in use are the cells of all live blocks together, the live blocks are counted, and
  the slots in use are within the budget;
* an allocation succeeds exactly if the budget has room for it, and both counters then grow
  without overflow;
* the end of a block's life takes its cells from the counters without underflow;
* a resize of a live block succeeds exactly if the budget has room for the block at its new size
  in the place of its old one, and the slots in use then change by the difference. -/
theorem heap_accounting {options : Options} {memory : σ} {steps : List (Step σ)} {vm : Vm σ}
    (h : Steps (Vm.new options memory) steps vm) (hf : vm.table.Addressable) :
    (vm.heap.usedSlots.toNat = vm.table.total Object.slots ∧
      vm.heap.liveBlocks.toNat = vm.table.total Object.blocks ∧
      vm.heap.usedSlots.toNat ≤ options.maxHeapSlots.toNat) ∧
    (∀ site size,
      ((vm.alloc site size).1.isSome = true ↔
        vm.heap.usedSlots.toNat + size.toNat ≤ options.maxHeapSlots.toNat) ∧
      ((vm.alloc site size).1.isSome = true →
        (vm.alloc site size).2.heap.usedSlots.toNat = vm.heap.usedSlots.toNat + size.toNat ∧
        (vm.alloc site size).2.heap.liveBlocks.toNat = vm.heap.liveBlocks.toNat + 1)) ∧
    (∀ site k b, vm.block k = .ok b →
      (vm.free site k).heap.usedSlots.toNat + b.cells.size = vm.heap.usedSlots.toNat ∧
      (vm.free site k).heap.liveBlocks.toNat + 1 = vm.heap.liveBlocks.toNat) ∧
    ∀ site k b size, vm.block k = .ok b → size ≠ 0 →
      ((vm.resize site k size).1.isSome = true ↔
        (vm.heap.usedSlots.toNat : ℤ) - b.cells.size + size.toNat ≤ options.maxHeapSlots.toNat) ∧
      ((vm.resize site k size).1.isSome = true →
        ((vm.resize site k size).2.heap.usedSlots.toNat : ℤ) =
          vm.heap.usedSlots.toNat - b.cells.size + size.toNat ∧
        (vm.resize site k size).2.heap.liveBlocks = vm.heap.liveBlocks) := by
  have hx := h.balanced hf
  have hs := h.sound (Vm.sound_new options memory) hf
  refine ⟨⟨hx.used, hx.live, h.budget_eq ▸ hx.within⟩, fun site size => ?_, fun site k b hb => ?_,
    fun site k b size hb hsize => ?_⟩
  · rw [← h.budget_eq]
    refine ⟨Vm.isSome_alloc site size, fun hsome => ?_⟩
    obtain ⟨hblocks, hused⟩ := hx.alloc_counters hs hf ((Vm.isSome_alloc site size).mp hsome)
    rw [Vm.heap_alloc hsome]
    exact ⟨hused, hblocks⟩
  · have hg := Vm.block_eq_ok.mp hb
    obtain ⟨hblocks, hused⟩ := hx.free_counters hg
    have hle : b.cells.size ≤ vm.heap.usedSlots.toNat := (hx.slots_le hg).1
    have hone : 1 ≤ vm.heap.liveBlocks.toNat := hx.one_le_liveBlocks hg
    rw [Vm.heap_free site hb]
    rw [Vm.heap_holdings] at hblocks hused
    exact ⟨by simp only [hused]; omega, by simp only [hblocks]; omega⟩
  · have hg := Vm.block_eq_ok.mp hb
    have hle : b.cells.size ≤ vm.heap.usedSlots.toNat := (hx.slots_le hg).1
    have hiff := Vm.isSome_resize hx site hb hsize
    rw [← h.budget_eq]
    refine ⟨hiff.trans (by omega), fun hsome => ?_⟩
    have hused := hx.resize_counters hg (hiff.mp hsome)
    rw [Vm.heap_resize hb hsize hsome]
    rw [Vm.heap_holdings] at hused
    exact ⟨by simp only [hused]; omega, rfl⟩

/-- In the midst of the tour one block of two cells is live. -/
theorem heap_accounting_midTour :
    ∃ steps, Steps (.new .default ()) steps midTour ∧ midTour.table.Addressable ∧
      midTour.table.total Object.slots = 2 ∧ midTour.table.total Object.blocks = 1 ∧
      ∀ site size, (midTour.alloc site size).1.isSome = true ↔ 2 + size.toNat ≤ 1048576 := by
  obtain ⟨steps, h⟩ := steps_midTour
  obtain ⟨⟨hused, hlive, -⟩, halloc, -⟩ := heap_accounting h addressable_midTour
  have hheap : midTour.heap = ⟨1, 2⟩ := by decide +kernel
  rw [hheap] at hused hlive halloc
  exact ⟨steps, h, addressable_midTour, hused.symm, hlive.symm,
    fun site size => (halloc site size).1⟩

end NativeBridge
