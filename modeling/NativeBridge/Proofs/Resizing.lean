import NativeBridge.Proofs.Accounting
import NativeBridge.Proofs.Protection

/-!
# Chains of resizes

A block may be resized again and again. As long as no resize fails, it keeps its handle, and what
becomes of a cell depends on the sizes alone (`resize_chain`): a cell that all sizes include is
kept, protection included, and every other cell that is there in the end is empty and unprotected,
since it was cut off or not there yet at some time. Nothing else that a handle addresses changes.
-/

namespace NativeBridge

variable {σ : Type} {vm mid vm' : Vm σ} {b : Handle} {blk : Heap.Block}

/-! ### Blocks -/

namespace Heap.Block

/-- The sizes of a block that is resized in turn, its first one in front. -/
def sizes (blk : Block) (ns : List UInt64) : List ℕ := blk.cells.size :: ns.map UInt64.toNat

/-- The last size is that of the block in the end. -/
theorem size_cells_foldl_resize (blk : Block) (ns : List UInt64) :
    (ns.foldl resize blk).cells.size = (blk.sizes ns).getLast (List.cons_ne_nil _ _) := by
  induction ns generalizing blk with
  | nil => rfl
  | cons n ns ih =>
    rw [List.foldl_cons, ih]
    simp [sizes]

theorem cell?_isSome_iff (blk : Block) (o : UInt64) :
    (blk.cell? o).isSome = true ↔ o.toNat < blk.cells.size := by
  simp [cell?]

/-- A cell that all sizes include is kept, and all others are empty. -/
theorem cell?_foldl_resize (blk : Block) (ns : List UInt64) {o : UInt64}
    (ho : o.toNat < (ns.foldl resize blk).cells.size) :
    (ns.foldl resize blk).cell? o =
      if ∀ n ∈ blk.sizes ns, o.toNat < n then blk.cell? o else some .empty := by
  induction ns generalizing blk with
  | nil => exact (if_pos (by simpa [sizes] using ho)).symm
  | cons n ns ih =>
    have hsizes : blk.sizes (n :: ns) = blk.cells.size :: (blk.resize n).sizes ns := by
      simp [sizes]
    rw [List.foldl_cons, ih _ ho, hsizes]
    by_cases hlater : ∀ m ∈ (blk.resize n).sizes ns, o.toNat < m
    · have hn : o < n := UInt64.lt_iff_toNat_lt.mpr (by simpa using hlater _ List.mem_cons_self)
      rw [if_pos hlater, cell?_resize, if_pos hn]
      by_cases hfirst : o.toNat < blk.cells.size
      · obtain ⟨c, hc⟩ := Option.isSome_iff_exists.mp ((blk.cell?_isSome_iff o).mpr hfirst)
        rw [if_pos (List.forall_mem_cons.mpr ⟨hfirst, hlater⟩), hc]
        rfl
      · have hnone : blk.cell? o = none :=
          Option.not_isSome_iff_eq_none.mp (mt (blk.cell?_isSome_iff o).mp hfirst)
        rw [if_neg fun h => hfirst (List.forall_mem_cons.mp h).1, hnone]
        rfl
    · rw [if_neg hlater, if_neg fun h => hlater (List.forall_mem_cons.mp h).2]

end Heap.Block

/-! ### Machines -/

namespace Vm

/-- The machine `vm'` is `vm` with the block `blk` in the place of what `b` addresses. -/
structure Reshaped (vm : Vm σ) (b : Handle) (blk : Heap.Block) (vm' : Vm σ) : Prop where
  block : vm'.object? b = some (.block blk)
  /-- All other handles address what they did. -/
  others : ∀ k, k ≠ b → vm'.object? k = vm.object? k
  /-- The counters of the heap and the journal aside, everything else is the same. -/
  rest : vm' = { vm with table := vm'.table, heap := vm'.heap, journal := vm'.journal }

theorem Reshaped.refl (hb : vm.object? b = some (.block blk)) : vm.Reshaped b blk vm :=
  ⟨hb, fun _ _ => rfl, rfl⟩

theorem Reshaped.trans {blk' : Heap.Block} (h : vm.Reshaped b blk mid)
    (h' : mid.Reshaped b blk' vm') : vm.Reshaped b blk' vm' where
  block := h'.block
  others k hk := (h'.others k hk).trans (h.others k hk)
  rest := by rw [h'.rest, h.rest]

/-- A resize that succeeds gives the same handle, to the resized block. -/
theorem resize_eq_some {site : Site} {size : UInt64} {k : Handle}
    (hb : vm.object? b = some (.block blk)) (hr : vm.resize site b size = (some k, vm')) :
    k = b ∧ vm.Reshaped b (blk.resize size) vm' := by
  have hblock := block_eq_ok.mpr hb
  rw [resize, isNull_eq_false hblock] at hr
  simp only [Bool.false_eq_true, if_false] at hr
  split at hr
  · cases hr
  · simp only [resizeBlock, hblock] at hr
    split at hr
    · cases hr
    · cases hr
      refine ⟨rfl, ?_, fun k hk => ?_, rfl⟩
      · exact (Handle.Table.get?_set _ _ _ _).trans (by rw [if_pos rfl, ← object?, hb]; rfl)
      · exact (Handle.Table.get?_set _ _ _ _).trans (if_neg hk)

/-- Asks for the sizes of a block in turn, each at a site. The replies come with the machine in the
end. -/
def resizeAll (vm : Vm σ) (b : Handle) : List (Site × UInt64) → List (Option Handle) × Vm σ
  | [] => ([], vm)
  | (site, size) :: requests =>
    let (reply, mid) := vm.resize site b size
    let (replies, vm') := mid.resizeAll b requests
    (reply :: replies, vm')

/-- Requests that all succeed resize the block in turn, under its handle. -/
theorem reshaped_resizeAll (hb : vm.object? b = some (.block blk))
    {requests : List (Site × UInt64)}
    (hok : ∀ reply ∈ (vm.resizeAll b requests).1, reply.isSome = true) :
    (∀ reply ∈ (vm.resizeAll b requests).1, reply = some b) ∧
      vm.Reshaped b ((requests.map Prod.snd).foldl Heap.Block.resize blk)
        (vm.resizeAll b requests).2 := by
  induction requests generalizing vm blk with
  | nil => exact ⟨fun _ hreply => (nomatch hreply), .refl hb⟩
  | cons request requests ih =>
    obtain ⟨site, size⟩ := request
    obtain ⟨hfirst, hlater⟩ := List.forall_mem_cons.mp hok
    obtain ⟨k, hk⟩ := Option.isSome_iff_exists.mp hfirst
    obtain ⟨rfl, hreshaped⟩ := resize_eq_some hb (Prod.ext hk rfl)
    obtain ⟨hreplies, hrest⟩ := ih hreshaped.block hlater
    exact ⟨List.forall_mem_cons.mpr ⟨hk, hreplies⟩, hreshaped.trans hrest⟩

end Vm

/-- **Chains of resizes.** In every state of a machine, let sizes be asked for in turn for a live
block, and let no request fail. Then every reply is the block's own handle, the block has the last
size in the end, and a cell of it is what it was at first, protection included, if all sizes include
it, the first one too; else it is empty and unprotected. All other handles address what they did.

Size zero frees what is not null, with the report of a failure if there is one, and the null handle
allocates, unless the size is zero too: then nothing happens. -/
theorem resize_chain (vm : Vm σ) :
    (∀ b blk requests, vm.object? b = some (.block blk) →
      (∀ reply ∈ (vm.resizeAll b requests).1, reply.isSome = true) →
      let sizes := blk.sizes (requests.map Prod.snd)
      (∀ reply ∈ (vm.resizeAll b requests).1, reply = some b) ∧
      ∃ blk', vm.Reshaped b blk' (vm.resizeAll b requests).2 ∧
        blk'.cells.size = sizes.getLast (List.cons_ne_nil _ _) ∧
        ∀ i : UInt64, i.toNat < blk'.cells.size →
          blk'.cell? i = if ∀ n ∈ sizes, i.toNat < n then blk.cell? i else some .empty) ∧
    ∀ site,
      (∀ h, h ≠ Handle.null → vm.resize site h 0 = (none, vm.free site h)) ∧
      (∀ n, n ≠ 0 → vm.resize site Handle.null n = vm.alloc site n) ∧
      vm.resize site Handle.null 0 = (none, vm) := by
  refine ⟨fun b blk requests hb hok => ?_, fun site => ⟨fun h hh => ?_, fun n hn => ?_, rfl⟩⟩
  · obtain ⟨hreplies, hreshaped⟩ := Vm.reshaped_resizeAll hb hok
    exact ⟨hreplies, _, hreshaped, Heap.Block.size_cells_foldl_resize blk _,
      fun i hi => Heap.Block.cell?_foldl_resize blk _ hi⟩
  · simp [Vm.resize, Handle.isNull_iff, hh]
  · simp [Vm.resize, hn]

/-- The block of the tour has two cells and gets four, two and then three of them. The second one
is still there with its protection, and the third one is new. -/
theorem resize_chain_midTour :
    let site : Site := ⟨.ofParts 0 1, .ofParts 1 1⟩
    let resized := midTour.resizeAll tourBlock [(site, 4), (site, 2), (site, 3)]
    (∃ blk c blk', midTour.object? tourBlock = some (.block blk) ∧
      blk.cell? 1 = some c ∧ c.protection = .writes ∧
      resized.2.object? tourBlock = some (.block blk') ∧ blk'.cells.size = 3 ∧
      blk'.cell? 1 = some c ∧ blk'.cell? 2 = some .empty) ∧
    midTour.resize site tourBlock 0 = (none, midTour.free site tourBlock) ∧
    midTour.resize site Handle.null 2 = midTour.alloc site 2 := by
  intro site resized
  obtain ⟨hchain, hspecial⟩ := resize_chain midTour
  obtain ⟨hfree, halloc, -⟩ := hspecial site
  refine ⟨?_, hfree tourBlock (by decide), halloc 2 (by decide)⟩
  obtain ⟨blk, c, hcell, hprot⟩ := Vm.protection?_eq_some.mp
    (show midTour.protection? tourBlock 1 = some .writes by decide +kernel)
  obtain ⟨hb, hc⟩ := Vm.cell_eq_ok.mp hcell
  have hsize : blk.cells.size = 2 := by
    have htwo : (midTour.block tourBlock).toOption.map (fun blk => blk.cells.size) = some 2 := by
      decide +kernel
    rw [Vm.block_eq_ok.mpr hb] at htwo
    exact Option.some_inj.mp htwo
  have hgranted : resized.1.all Option.isSome = true := by decide +kernel
  obtain ⟨-, blk', hreshaped, hlast, hcells⟩ := hchain tourBlock blk
    [(site, 4), (site, 2), (site, 3)] hb (List.all_eq_true.mp hgranted)
  simp only [Heap.Block.sizes, hsize] at hlast hcells
  have hlast' : blk'.cells.size = 3 := hlast
  refine ⟨blk, c, blk', hb, hc, hprot, hreshaped.block, hlast', ?_, ?_⟩
  · rw [hcells 1 (by rw [hlast']; decide), if_pos (by decide), hc]
  · rw [hcells 2 (by rw [hlast']; decide), if_neg (by decide)]

end NativeBridge
