import NativeBridge.Proofs.Identity
import NativeBridge.Proofs.Machine.Cell
import NativeBridge.Proofs.Protection

/-!
# The contents of the heap

The heap refines a map from handles of blocks and offsets to contents (`heap_contents`). A write
changes the map at one place and nothing else of the machine. As long as that place is spared, an
unprotected read finds there what the written handle addressed when it was written: nothing, the
reference, or a copy of the scalar under a handle that no step minted before. What has become of the
written handle itself in the meantime does not matter.
-/

namespace NativeBridge

open Handle.Table (Addressable mintedIn)

variable {σ : Type} {vm vm' : Vm σ} {b : Handle} {i : UInt64}

/-! ### Writes -/

/-- The machines differ at most in what the cell at offset `i` of the block that `b` addresses
holds. -/
structure Vm.DiffersInValue (vm : Vm σ) (b : Handle) (i : UInt64) (vm' : Vm σ) : Prop where
  /-- Apart from the table everything is the same: counters, queues, scopes with their locals,
  modules, handlers and the journal. -/
  rest : vm' = { vm with table := vm'.table }
  live : vm'.table.live = vm.table.live
  free : vm'.table.free = vm.table.free
  /-- All other handles address what they did. -/
  objects : ∀ k, k ≠ b → vm'.object? k = vm.object? k
  size : vm'.blockSize b = vm.blockSize b
  cells : ∀ j, j ≠ i → vm'.holdings.cell? b j = vm.holdings.cell? b j
  protection : ∀ j, (vm'.holdings.cell? b j).map Heap.Cell.protection =
    (vm.holdings.cell? b j).map Heap.Cell.protection

theorem Vm.differsInValue_write {v : Handle} (hw : vm.write b i v = .ok vm') :
    vm.DiffersInValue b i vm' := by
  obtain ⟨blk, c, hb, hc, -, hvm'⟩ := store_eq_ok.mp (write_eq_ok.mp hw).2
  have hcells : ∀ j, vm'.holdings.cell? b j =
      (blk.modifyCell i fun c => { c with value := vm.stored v }).cell? j := by
    intro j
    have hedit := Move.cell?_edit (x := vm.holdings) (y := vm'.holdings) hb
      (f := fun blk => blk.modifyCell i fun c => { c with value := vm.stored v })
      (by rw [holdings_write hw]; rfl) b j
    rwa [if_pos rfl] at hedit
  have hblock : vm'.table.get? b =
      some (.block (blk.modifyCell i fun c => { c with value := vm.stored v })) := by
    rw [hvm', setBlock, Handle.Table.get?_set, if_pos rfl, hb]
    rfl
  refine ⟨by rw [hvm']; rfl, by rw [hvm']; exact Handle.Table.live_set _ _ _,
    by rw [hvm']; exact Handle.Table.free_set _ _ _, fun k hk => ?_, ?_, fun j hj => ?_,
    fun j => ?_⟩
  · rw [hvm', object?, setBlock, Handle.Table.get?_set, if_neg hk, object?]
  · rw [blockSize, blockSize, block_eq_ok.mpr hblock, block_eq_ok.mpr hb]
    simp [Except.map]
  · rw [hcells, Heap.Block.cell?_modifyCell, if_neg hj]
    exact (Holdings.cell?_of_block hb j).symm
  · rw [hcells, Heap.Block.cell?_modifyCell, Holdings.cell?_of_block (x := vm.holdings) hb]
    split
    · rw [Option.map_map]
      rfl
    · rfl

/-- What is written is there. -/
theorem Vm.value_write {v : Handle} (hw : vm.write b i v = .ok vm') :
    (vm'.holdings.cell? b i).map Heap.Cell.value = some (vm.stored v) := by
  obtain ⟨blk, c, hb, hc, -, -⟩ := store_eq_ok.mp (write_eq_ok.mp hw).2
  have hcell : vm.holdings.cell? b i = some c := Holdings.cell?_eq_some.mpr ⟨blk, hb, hc⟩
  have hafter := Move.cell?_edit_cell (x := vm.holdings) (y := vm'.holdings) hb
    (f := fun c => { c with value := vm.stored v }) (by rw [holdings_write hw]; rfl) hcell
  rw [hafter, if_pos ⟨rfl, rfl⟩]
  rfl

theorem Vm.exists_write {v : Handle} (hok : (vm.write b i v).isOk = true) :
    ∃ vm', vm.write b i v = .ok vm' := by
  cases hw : vm.write b i v with
  | ok vm' => exact ⟨vm', rfl⟩
  | error e =>
    rw [hw] at hok
    cases hok

/-- A write that succeeds is what the act makes of the machine. -/
theorem Act.perform_write {id : ScopeId} {scope : Scope} (hid : vm.scopes.get? id = some scope)
    {v : Handle} (hw : vm.write b i v = .ok vm') :
    Act.perform vm (.within id (.write b i v)) = vm' := by
  simp [perform, hid, ScopeOp.perform, Vm.keepOnError, hw]

/-! ### What a write stores -/

theorem Vm.stored_null (vm : Vm σ) : vm.stored Handle.null = none := rfl

theorem Vm.value?_of_object? {v : Handle} {o : Object σ} (ho : vm.object? v = some o) :
    vm.value? v = some (o.value v) := by
  have hnull : v.isNull = false := by
    rw [Bool.eq_false_iff, ne_eq, Handle.isNull_iff]
    rintro rfl
    simp [object?] at ho
  simp [value?, hnull, ho]

theorem Vm.object?_of_value? {v : Handle} {s : Scalar} (hv : vm.value? v = some (.scalar s)) :
    vm.object? v = some (.scalar s) := by
  unfold value? at hv
  split at hv
  · cases hv
  · obtain ⟨o, ho, hos⟩ := Option.map_eq_some_iff.mp hv
    cases o with
    | scalar s' => cases hos; exact ho
    | _ => cases hos

theorem Vm.stored_scalar {v : Handle} {s : Scalar} (ho : vm.object? v = some (.scalar s)) :
    vm.stored v = some (.scalar s) := by
  rw [stored, value?_of_object? ho]
  rfl

theorem Vm.stored_reference {v : Handle} {o : Object σ} (ho : vm.object? v = some o)
    (hns : ∀ s, o ≠ .scalar s) : vm.stored v = some (.ref v) := by
  rw [stored, value?_of_object? ho]
  cases o with
  | scalar s => exact absurd rfl (hns s)
  | _ => rfl

/-! ### Steps that spare a cell -/

/-- The step does not write to the cell, and it neither frees the block nor resizes it to a size
without the cell. -/
structure Step.Spares (b : Handle) (i : UInt64) (s : Step σ) : Prop where
  notWritten : ∀ id v, s.act = .within id (.write b i v) → ∃ e, s.before.write b i v = .error e
  notFreed : ∀ id, s.act ≠ .within id (.free b)
  notCut : ∀ id n, s.act = .within id (.resize b n) → i < n

theorem Step.spares_host (vm : Vm σ) (op : HostOp) : Step.Spares b i ⟨vm, .host op⟩ :=
  ⟨fun _ _ h => (nomatch h), fun _ h => (nomatch h), fun _ _ h => (nomatch h)⟩

theorem Step.spares_resize (vm : Vm σ) (id : ScopeId) {n : UInt64} (hn : i < n) :
    Step.Spares b i ⟨vm, .within id (.resize b n)⟩ :=
  ⟨fun _ _ h => (nomatch h), fun _ h => (nomatch h), fun _ _ h => by cases h; exact hn⟩

/-- The moves of a step that spares a cell spare it. -/
theorem Step.spares_of_mem {s : Step σ} (hs : s.Spares b i) {m : Move σ}
    (hm : m ∈ s.act.moves s.before) : m.Spares b i := by
  have hcause := Act.causedBy_of_mem hm
  cases m with
  | free k =>
    rintro rfl
    obtain ⟨id, hact | hact⟩ := hcause
    · exact hs.notFreed id hact
    · exact absurd (hs.notCut id 0 hact) (by simp [UInt64.lt_iff_toNat_lt])
  | resize k n =>
    rintro rfl
    obtain ⟨id, hact⟩ := hcause
    exact hs.notCut id n hact
  | write k offset v =>
    rintro rfl rfl
    -- a write that fails makes no move
    obtain ⟨id, value, hact⟩ := hcause
    obtain ⟨e, he⟩ := hs.notWritten id value hact
    rw [hact] at hm
    simp [Act.moves, ScopeOp.moves, Vm.writeMoves, he] at hm
  | _ => trivial

/-! ### Reads -/

theorem Vm.read_of_cell? {c : Heap.Cell} (hc : vm.holdings.cell? b i = some c)
    (hp : c.protection.read = false) : vm.read b i = .ok c.value := by
  obtain ⟨blk, hcell⟩ := cell_of_cell?_holdings hc
  simp [read, hcell, hp]

/-- A read of an empty cell yields the null handle. -/
theorem ScopeOp.perform_read_none (hr : vm.read b i = .ok none) (id : ScopeId) (scope : Scope) :
    (ScopeOp.read b i).perform vm id scope = (Except.ok Handle.null, vm) := by
  simp only [perform, hr]
  rfl

/-- A read of a cell that holds a value yields the handle that the scope mints for it. -/
theorem ScopeOp.perform_read_some {v : Value} (hr : vm.read b i = .ok (some v)) (id : ScopeId)
    (scope : Scope) : (ScopeOp.read b i).perform vm id scope =
      (Except.ok (vm.mint id v).1, (vm.mint id v).2) := by
  simp only [perform, hr]
  rfl

/-- What the scope of a read has minted before and where it was opened does not matter. -/
theorem ScopeOp.perform_read_scope (vm : Vm σ) (id : ScopeId) (scope scope' : Scope) :
    (ScopeOp.read b i).perform vm id scope = (ScopeOp.read b i).perform vm id scope' := rfl

/-- The cells of a new block are empty. -/
theorem Vm.read_alloc (hs : vm.table.Sound) {site : Site} {size : UInt64}
    (ha : vm.alloc site size = (some b, vm')) (hf : vm'.table.Addressable) {j : UInt64}
    (hj : j < size) : vm'.read b j = .ok none := by
  unfold alloc at ha
  split at ha
  · cases ha
    have hget := Handle.Table.get?_insert_self hs hf
    refine read_of_cell? (c := .empty) (Holdings.cell?_eq_some.mpr ⟨_, hget, ?_⟩) rfl
    rw [Heap.Block.cell?_ofSize, if_pos hj]
  · cases ha

/-- **The heap is a map.** In every state that a machine reaches:

* a write that succeeds changes nothing but what its cell holds, and in every later state, if no
  step wrote to the cell successfully, freed the block or resized it to a size without the cell in
  the meantime, the cell is there, and if it is not protected against reads then a read yields the
  null handle if the null handle was written, the written handle if it addressed a module, a
  function or a block, and else a handle that was never minted before and addresses a copy of the
  scalar that was written;
* a new block reads as null at every offset. -/
theorem heap_contents {options : Options} {memory : σ} {past : List (Step σ)} {vm : Vm σ}
    (hpast : Steps (Vm.new options memory) past vm) (hf : vm.table.Addressable) :
    (∀ id scope b i v mid, vm.scopes.get? id = some scope → vm.write b i v = .ok mid →
      vm.DiffersInValue b i mid ∧
      ∀ later vm',
        Steps (Vm.new options memory) (past ++ ⟨vm, .within id (.write b i v)⟩ :: later) vm' →
        vm'.table.Addressable → (∀ s ∈ later, s.Spares b i) →
        ∃ c, vm'.holdings.cell? b i = some c ∧ (c.protection.read = false →
          ∀ id' scope', vm'.scopes.get? id' = some scope' →
            (v = Handle.null →
              (ScopeOp.read b i).perform vm' id' scope' = (Except.ok Handle.null, vm')) ∧
            (∀ o, vm.object? v = some o → (∀ s, o ≠ .scalar s) →
              (ScopeOp.read b i).perform vm' id' scope' = (Except.ok v, vm')) ∧
            ∀ s, vm.object? v = some (.scalar s) → ∃ k vm'',
              (ScopeOp.read b i).perform vm' id' scope' = (Except.ok k, vm'') ∧
              (vm''.table.Addressable → vm''.object? k = some (.scalar s) ∧
                k ∉ mintedIn
                  (fatesOf (past ++ ⟨vm, .within id (.write b i v)⟩ :: later))))) ∧
    ∀ site size b mid,
      vm.alloc site size = (some b, mid) ∨ vm.resize site Handle.null size = (some b, mid) →
      mid.table.Addressable → ∀ j, j < size → ∀ id scope,
        (ScopeOp.read b j).perform mid id scope = (Except.ok Handle.null, mid) := by
  have hs := Vm.sound_new options memory
  have hsvm := hpast.sound hs hf
  refine ⟨fun id scope b i v mid hid hw => ⟨Vm.differsInValue_write hw, ?_⟩, ?_⟩
  · intro later vm' h hf' hspare
    have hmid : Steps (Vm.new options memory) (past ++ [⟨vm, .within id (.write b i v)⟩]) mid :=
      Act.perform_write hid hw ▸ hpast.snoc (.within id (.write b i v)) ⟨scope, hid⟩
    have hrecords := h.records hf'
    have hsvm' := h.sound hs hf'
    -- the cell holds what was written, since all later moves spare it
    have hvalue : (vm'.holdings.cell? b i).map Heap.Cell.value = some (vm.stored v) := by
      have h' := h
      rw [List.append_cons] at h'
      obtain ⟨hend, hmoves, hsmid⟩ := Steps.rest hs hmid h' hf'
      rw [hend]
      refine hmoves.value_after hsmid (hend ▸ hf') (fun m hm => ?_) (Vm.value_write hw)
      obtain ⟨s, hlater, hms⟩ := List.mem_flatMap.mp hm
      exact Step.spares_of_mem (hspare s hlater) hms
    obtain ⟨c, hc, hcv⟩ := Option.map_eq_some_iff.mp hvalue
    refine ⟨c, hc, fun hp id' scope' _ => ?_⟩
    have hread := Vm.read_of_cell? hc hp
    rw [hcv] at hread
    refine ⟨fun hv => ?_, fun o ho hns => ?_, fun s ho => ?_⟩
    · rw [hv, Vm.stored_null] at hread
      exact ScopeOp.perform_read_none hread id' scope'
    · rw [Vm.stored_reference ho hns] at hread
      exact ScopeOp.perform_read_some hread id' scope'
    · rw [Vm.stored_scalar ho] at hread
      refine ⟨_, _, ScopeOp.perform_read_some hread id' scope', fun hf'' => ?_⟩
      obtain ⟨hnew, hobject⟩ := Vm.mint_scalar hsvm' hf''
      exact ⟨hobject, fun hmem => hnew ((hrecords.issued _).mpr hmem)⟩
  · intro site size b mid ha hf' j hj id scope
    have ha' : vm.alloc site size = (some b, mid) := by
      rcases ha with ha | ha
      · exact ha
      · simp only [Vm.resize, Handle.isNull_null, if_true] at ha
        split at ha
        · cases ha
        · exact ha
    exact ScopeOp.perform_read_none (Vm.read_alloc hsvm ha' hf' hj) id scope

/-- A program stores the text of the tour in the first cell. -/
def storeTour : Act Unit := .within ⟨0⟩ (.write tourBlock 0 (.ofParts 2 2))

/-- The host releases the text of the tour. -/
def releaseTour : Act Unit := .host (.release (.ofParts 2 2))

/-- After the text of the tour was stored, released and the block resized, a read of the cell
yields a copy of it. -/
theorem heap_contents_midTour :
    ∃ scope k vm'',
      (ScopeOp.read tourBlock 0).perform (midTour.performAll [storeTour, releaseTour, resizeTour 4])
        ⟨0⟩ scope = (Except.ok k, vm'') ∧
      vm''.object? k = some (.scalar (.string "seven")) := by
  obtain ⟨past, hpast⟩ := steps_midTour
  obtain ⟨scope, hid⟩ : ∃ scope, midTour.scopes.get? ⟨0⟩ = some scope :=
    Option.isSome_iff_exists.mp (by decide +kernel)
  obtain ⟨mid, hw⟩ := Vm.exists_write
    (show (midTour.write tourBlock 0 (.ofParts 2 2)).isOk = true by decide +kernel)
  obtain ⟨scope', hid'⟩ : ∃ scope,
      (midTour.performAll [storeTour, releaseTour, resizeTour 4]).scopes.get? ⟨0⟩ = some scope :=
    Option.isSome_iff_exists.mp (by decide +kernel)
  have hlater : Steps midTour _ (midTour.performAll [storeTour, releaseTour, resizeTour 4]) :=
    Vm.steps_performAll midTour (by decide +kernel)
  obtain ⟨-, hread⟩ := (heap_contents hpast addressable_midTour).1 _ _ _ _ _ _ hid hw
  obtain ⟨c, hc, hreads⟩ := hread
    (Vm.stepsOf (storeTour.perform midTour) [releaseTour, resizeTour 4]) _
    (hpast.trans hlater) (by unfold Addressable; decide +kernel) (by
      intro s hs
      simp only [Vm.stepsOf, List.mem_cons, List.not_mem_nil, or_false] at hs
      rcases hs with rfl | rfl
      · exact Step.spares_host _ _
      · exact Step.spares_resize _ _ (by decide))
  -- the cell that is read is not protected
  obtain ⟨_, c', hcell, hprot⟩ := Vm.protection?_eq_some.mp
    (show (midTour.performAll [storeTour, releaseTour, resizeTour 4]).protection? tourBlock 0 =
      some .none by decide +kernel)
  obtain ⟨_, hcell'⟩ := Vm.cell_of_cell?_holdings hc
  obtain rfl : c' = c := by
    rw [hcell] at hcell'
    cases hcell'
    rfl
  obtain ⟨-, -, hscalar⟩ := hreads (by rw [hprot]; rfl) ⟨0⟩ scope' hid'
  obtain ⟨k, vm'', hperform, hkept⟩ := hscalar (.string "seven")
    (Vm.object?_of_value? (by decide +kernel))
  have hvm'' : vm'' = ((ScopeOp.read tourBlock 0).perform
      (midTour.performAll [storeTour, releaseTour, resizeTour 4]) ⟨0⟩ ⟨.null, .null, []⟩).2 := by
    rw [ScopeOp.perform_read_scope _ _ _ scope', hperform]
  exact ⟨scope', k, vm'', hperform,
    (hkept (by rw [hvm'']; unfold Addressable; decide +kernel)).1⟩

end NativeBridge
