import NativeBridge.Proofs.Contents
import NativeBridge.Proofs.Machine.Registered

/-!
# References in the heap

A cell that refers to something keeps the handle and nothing else, also when what the handle
addresses is freed and its slot of the table is taken by something new. The contents of cells come
from writes (`Steps.content_stored`), so that the history of a machine tells of every reference in
its heap when it was stored and what it was stored for. The handle is then followed through the
rest of the history (`Vm.Follows`).

**References are kept** (`stored_references`): every reference in the heap was stored when its
handle addressed a module, a function or a block. Since then the handle addresses what has become
of that very object, or it is dead for good. References to modules and functions never die.
-/

namespace NativeBridge

open Handle.Table (Addressable)

variable {σ : Type} {vm vm' : Vm σ} {b : Handle} {i : UInt64}

/-! ### What is stored -/

theorem Vm.stored_ne_null (vm : Vm σ) (k : Handle) : vm.stored k ≠ some .null := by
  intro hk
  unfold stored at hk
  split at hk
  · cases hk
  · next hv => exact hv hk

/-- A reference that is stored is the written handle, which addresses what is not a scalar. -/
theorem Vm.stored_eq_ref {k k' : Handle} (hk : vm.stored k = some (.ref k')) :
    k' = k ∧ ∃ o, vm.object? k = some o ∧ ∀ s, o ≠ .scalar s := by
  have hv : vm.value? k = some (.ref k') := by
    unfold stored at hk
    split at hk
    · cases hk
    · exact hk
  unfold value? at hv
  split at hv
  · cases hv
  · obtain ⟨o, ho, hok⟩ := Option.map_eq_some_iff.mp hv
    cases o with
    | scalar s => cases hok
    | _ => cases hok; exact ⟨rfl, _, ho, fun s h => nomatch h⟩

/-- The step writes to the cell at offset `i` of the block that `b` addresses, and what it puts
there is the value `v` that `k` stands for. -/
structure Step.Stores (s : Step σ) (b : Handle) (i : UInt64) (k : Handle) (v : Value) : Prop where
  within : ∃ id, s.act = .within id (.write b i k)
  succeeds : ∃ vm', s.before.write b i k = .ok vm'
  stored : s.before.stored k = some v

/-- A move that puts a value into a cell comes from a step that stores it there. -/
theorem Step.stores_of_mem {s : Step σ} {v : Value}
    (hm : .write b i (some v) ∈ s.act.moves s.before) : ∃ k, s.Stores b i k v := by
  obtain ⟨id, k, hact⟩ := Act.causedBy_of_mem hm
  rw [hact] at hm
  have hmoves : .write b i (some v) ∈ s.before.writeMoves b i k := hm
  unfold Vm.writeMoves at hmoves
  split at hmoves
  · next vm' hw =>
    have hv : Move.write b i (some v) = .write b i (s.before.stored k) :=
      List.mem_singleton.mp hmoves
    injection hv with _ _ hv
    exact ⟨k, ⟨id, hact⟩, ⟨vm', hw⟩, hv.symm⟩
  · cases hmoves

/-! ### Where references come from -/

namespace Steps

variable {options : Options} {memory : σ} {past beyond : List (Step σ)}

/-- **Contents are written.** What a cell holds was put there by a step of the history. -/
theorem content_stored (h : Steps (Vm.new options memory) past vm) (hf : vm.table.Addressable)
    {v : Value} (hv : vm.holdings.content? b i = some v) :
    ∃ earlier s later k, past = earlier ++ s :: later ∧
      Steps (Vm.new options memory) earlier s.before ∧ s.Stores b i k v := by
  induction h with
  | refl =>
    have hempty : (Vm.new options memory).holdings.table.get? b = none :=
      Handle.Table.get?_empty b
    rw [Holdings.content?_of_not_block fun _ hblk => nomatch hempty.symm.trans hblk] at hv
    cases hv
  | @snoc past before act hpast ha ih =>
    have hf' := Act.addressable ha hf
    have hs := hpast.sound (Vm.sound_new options memory) hf'
    rw [Act.holdings_perform ha] at hv
    have hfafter : (before.holdings.after (act.moves before)).table.Addressable := by
      rw [← Act.holdings_perform ha]
      exact hf
    rcases (Act.moves_perform ha hs hf).content_before hs hfafter hv with hbefore | hmem
    · obtain ⟨earlier, s, later, k, rfl, hearlier, hstores⟩ := ih hf' hbefore
      exact ⟨earlier, s, later ++ [⟨before, act⟩], k, by simp, hearlier, hstores⟩
    · obtain ⟨k, hstores⟩ := Step.stores_of_mem (s := ⟨before, act⟩) hmem
      exact ⟨past, ⟨before, act⟩, [], k, rfl, hpast, hstores⟩

/-- A handle that has addressed something and is dead stays dead. -/
theorem dead_for_good {mid : Vm σ} {past later : List (Step σ)}
    (hmid : Steps (Vm.new options memory) past mid)
    (h : Steps (Vm.new options memory) (past ++ later) vm) (hf : vm.table.Addressable) {k : Handle}
    {o : Object σ} (ho : mid.object? k = some o) (hdead : vm.isLive k = false)
    (h' : Steps (Vm.new options memory) (past ++ later ++ beyond) vm')
    (hf' : vm'.table.Addressable) : vm'.isLive k = false := by
  have hremoved : .removed k ∈ fatesOf later := by
    by_contra hr
    rw [(hmid.follows h hf ho).live.mpr hr] at hdead
    cases hdead
  rw [List.append_assoc] at h'
  rw [Bool.eq_false_iff, ne_eq, (hmid.follows h' hf' ho).live, not_not, fatesOf_append]
  exact List.mem_append_left _ hremoved

/-- A handle that addresses anything but a scalar was never minted for a scalar. -/
theorem not_minted_scalar {mid : Vm σ} {past later : List (Step σ)}
    (hmid : Steps (Vm.new options memory) past mid)
    (h : Steps (Vm.new options memory) (past ++ later) vm) (hf : vm.table.Addressable) {k : Handle}
    {o : Object σ} (ho : mid.object? k = some o) (hns : ∀ s, o ≠ .scalar s) (s : Scalar) :
    .minted k (.scalar s) ∉ fatesOf (past ++ later) := by
  rw [fatesOf_append]
  intro hmem
  rcases List.mem_append.mp hmem with hbefore | hsince
  · exact hns s ((hmid.records (hmid.addressable_at h hf)).related k _ o hbefore ho)
  · exact (hmid.follows h hf ho).notMinted (List.mem_filterMap.mpr ⟨_, hsince, rfl⟩)

end Steps

/-- **References are kept.** In every state that a machine reaches, a cell of a block is empty, or
it holds a scalar, or it holds a reference, and then for the handle `k` that it refers to:

* `k` is not the null handle, and it was never minted for a scalar;
* a step of the history stored it in the cell when it addressed an object `o`, which was a module,
  a function or a block;
* as long as `k` resolves it addresses what has become of `o`, to which it was never minted anew;
* `k` resolves if `o` was a module or a function;
* once `k` does not resolve, it will not resolve again in any later state. -/
theorem stored_references {options : Options} {memory : σ} {past : List (Step σ)}
    (h : Steps (Vm.new options memory) past vm) (hf : vm.table.Addressable) {c : Heap.Cell}
    (hc : vm.holdings.cell? b i = some c) :
    c.value = none ∨ (∃ s, c.value = some (.scalar s)) ∨
      ∃ k, c.value = some (.ref k) ∧ k ≠ Handle.null ∧
        (∀ s, .minted k (.scalar s) ∉ fatesOf past) ∧
        ∃ earlier step later o, past = earlier ++ step :: later ∧
          Steps (Vm.new options memory) earlier step.before ∧
          step.Stores b i k (.ref k) ∧ step.before.object? k = some o ∧
          (o.kind = .module ∨ o.kind = .function ∨ o.kind = .block) ∧
          vm.Follows k o (step :: later) ∧
          (o.Lasting → vm.isLive k = true) ∧
          (vm.isLive k = false → ∀ beyond vm',
            Steps (Vm.new options memory) (past ++ beyond) vm' → vm'.table.Addressable →
              vm'.isLive k = false) := by
  have hs := Vm.sound_new options memory
  rcases hvalue : c.value with _ | v
  · exact .inl rfl
  have hcontent : vm.holdings.content? b i = some v :=
    Option.bind_eq_some_iff.mpr ⟨c, hc, hvalue⟩
  obtain ⟨earlier, step, later, k, rfl, hearlier, hstores⟩ := h.content_stored hf hcontent
  right
  cases v with
  | null => exact absurd hstores.stored (step.before.stored_ne_null k)
  | scalar s => exact .inl ⟨s, rfl⟩
  | ref k' =>
    obtain ⟨rfl, o, ho, hns⟩ := Vm.stored_eq_ref hstores.stored
    refine .inr ⟨k', rfl, ?_, hearlier.not_minted_scalar h hf ho hns, earlier, step, later, o, rfl,
      hearlier, hstores, ho, ?_, hearlier.follows h hf ho, fun hl => ?_,
      fun hdead beyond vm' h' hf' => ?_⟩
    · rintro rfl
      cases ho
    · cases o with
      | scalar s => exact absurd rfl (hns s)
      | module m => exact .inl rfl
      | function f => exact .inr (.inl rfl)
      | block blk => exact .inr (.inr rfl)
    · obtain ⟨o', ho', -⟩ := hearlier.object_lasts hs h hf ho hl
      exact Handle.Table.contains_iff.mpr ⟨o', ho'⟩
    · exact hearlier.dead_for_good h hf ho hdead h' hf'

/-- A program stores a reference to a new block in the first cell of the block of the tour. Then it
frees the new block, and another one takes its slot. -/
def danglingTour : List (Act Unit) :=
  [.within ⟨0⟩ (.alloc 1), .within ⟨0⟩ (.write tourBlock 0 (.ofParts 4 1)),
    .within ⟨0⟩ (.free (.ofParts 4 1)), .within ⟨0⟩ (.alloc 1)]

/-- The reference is still there, and it never leads to the block that took the slot. -/
theorem stored_references_danglingTour :
    ∃ past c, Steps (.new .default ()) past (midTour.performAll danglingTour) ∧
      (midTour.performAll danglingTour).holdings.cell? tourBlock 0 = some c ∧
      c.value = some (.ref (.ofParts 4 1)) ∧
      (midTour.performAll danglingTour).isLive (.ofParts 4 2) = true ∧
      ∀ beyond vm', Steps (.new .default ()) (past ++ beyond) vm' → vm'.table.Addressable →
        vm'.isLive (.ofParts 4 1) = false := by
  obtain ⟨past, hpast⟩ := steps_midTour
  have hlater : Steps midTour _ (midTour.performAll danglingTour) :=
    Vm.steps_performAll midTour (by decide +kernel)
  have h := hpast.trans hlater
  obtain ⟨c, hc, hvalue⟩ := Option.bind_eq_some_iff.mp
    (show (midTour.performAll danglingTour).holdings.content? tourBlock 0 =
      some (.ref (.ofParts 4 1)) by decide +kernel)
  refine ⟨_, c, h, hc, hvalue, by decide +kernel, ?_⟩
  rcases stored_references h (by unfold Addressable; decide +kernel) hc with
    hempty | ⟨s, hs⟩ | ⟨k, hk, -, -, _, _, _, _, -, -, -, -, -, -, -, hdead⟩
  · cases hempty.symm.trans hvalue
  · cases hs.symm.trans hvalue
  · cases hk.symm.trans hvalue
    exact hdead (by decide +kernel)

end NativeBridge
