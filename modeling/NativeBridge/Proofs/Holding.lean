import NativeBridge.Program.BlockRef
import NativeBridge.Proofs.Kinds
import NativeBridge.Proofs.Refusals
import NativeBridge.Proofs.Resizing

/-!
# Blocks as native code holds them

Native code holds a block from the moment at which it allocated it or wrapped its handle
(`BlockRef.Obtained`), and the machine does not keep it from becoming stale: the block may be
resized and freed elsewhere, and its slot of the table be taken by something new. A request to
resize what is held goes through the operation that also allocates, for the null handle, and frees,
for size zero. It does neither here (`held_block_resize`): what is held is never the null handle,
size zero is refused before the machine is asked, and a handle whose block was freed addresses
nothing.
-/

namespace NativeBridge

variable {σ : Type} {vm vm' : Vm σ} {b : BlockRef} {scope : Scope} {n : UInt64}

/-! ### Programs that hold blocks -/

/-- Native code obtains the block `b` by the step: through its scope it allocates the block, or it
checks that its handle addresses one. -/
inductive BlockRef.Obtained (b : BlockRef) (s : Step σ) : Prop
  | alloc {scope : Scope} {size : UInt64} (hact : s.act = .within b.scope (.alloc size))
    (hid : s.before.scopes.get? b.scope = some scope)
    (hreply : (s.before.alloc scope.site size).1 = some b.handle)
  | wrap (hact : s.act = .within b.scope (.isKind b.handle .block))
    (hreply : s.before.isKind b.handle .block = true)

section Eval

variable {r : Role} {enter : Enter σ} {frame : Frame σ} {id : ScopeId}

/-- A request through a scope that the program holds is answered at once. -/
theorem Program.eval_within (hid : frame.scope? vm id = some scope) (op : ScopeOp)
    (next : op.Reply → Program σ r) :
    (within id op next).eval enter frame vm =
      (next (op.perform vm id scope).1).eval enter frame (op.perform vm id scope).2 := by
  rw [eval, hid]

namespace BlockRef

/-- A program that allocates makes a step, and is given exactly the block that it obtains by it. -/
theorem eval_alloc (hid : frame.scope? vm id = some scope) (size : UInt64) :
    ∃ reply, (∀ next : Option BlockRef → Program σ r,
      (alloc id size next).eval enter frame vm = (next reply).eval enter frame
        (Act.perform vm (.within id (.alloc size)))) ∧
      ∀ b, reply = some b ↔ b.Obtained ⟨vm, .within id (.alloc size)⟩ := by
  have hopen := Frame.scope?_eq_some hid
  refine ⟨(vm.alloc scope.site size).1.map (⟨id, ·⟩), fun next => ?_, fun b => ⟨fun hb => ?_, ?_⟩⟩
  · rw [Act.perform_within hopen]
    exact Program.eval_within hid (.alloc size) _
  · obtain ⟨h, hh, rfl⟩ := Option.map_eq_some_iff.mp hb
    exact .alloc rfl hopen hh
  · rintro (⟨hact, hid', hreply⟩ | ⟨hact, -⟩) <;> cases hact
    cases hopen.symm.trans hid'
    exact Option.map_eq_some_iff.mpr ⟨b.handle, hreply, rfl⟩

/-- A program that wraps a handle makes a step, and is given exactly the block that it obtains by
it. -/
theorem eval_wrap (hid : frame.scope? vm id = some scope) (h : Handle) :
    ∃ reply, (∀ next : Except BridgeError BlockRef → Program σ r,
      (wrap id h next).eval enter frame vm = (next reply).eval enter frame
        (Act.perform vm (.within id (.isKind h .block)))) ∧
      ∀ b, reply = .ok b ↔ b.Obtained ⟨vm, .within id (.isKind h .block)⟩ := by
  refine ⟨if vm.isKind h .block then .ok ⟨id, h⟩ else .error (.badHandle (.isNot h .block)),
    fun next => ?_, fun b => ⟨fun hb => ?_, ?_⟩⟩
  · rw [Act.perform_within (Frame.scope?_eq_some hid)]
    exact Program.eval_within hid (.isKind h .block) _
  · split at hb
    · next hkind =>
      cases hb
      exact .wrap rfl hkind
    · cases hb
  · rintro (⟨hact, -, -⟩ | ⟨hact, hreply⟩) <;> cases hact
    exact if_pos hreply

/-- What becomes of a block that is held and of the machine when it is resized. -/
def resized (b : BlockRef) (vm : Vm σ) (scope : Scope) (n : UInt64) :
    Except BlockRef BlockRef × Vm σ :=
  if n = 0 then (.error b, vm)
  else
    match vm.resize scope.site b.handle n with
    | (some h, vm') => (.ok ⟨b.scope, h⟩, vm')
    | (none, vm') => (.error b, vm')

theorem eval_resize (hid : frame.scope? vm b.scope = some scope)
    (next : Except BlockRef BlockRef → Program σ r) :
    (b.resize n next).eval enter frame vm =
      (next (b.resized vm scope n).1).eval enter frame (b.resized vm scope n).2 := by
  unfold resize resized
  split
  · rfl
  · rw [Program.eval_within hid]
    simp only [ScopeOp.perform]
    cases vm.resize scope.site b.handle n with
    | mk reply vm' => cases reply <;> rfl

end BlockRef

end Eval

namespace BlockRef

/-- After the step the handle addresses a block. -/
theorem Obtained.object? {s : Step σ} (hb : b.Obtained s) (hs : s.before.table.Sound)
    (hf : (s.act.perform s.before).table.Addressable) :
    ∃ blk, (s.act.perform s.before).object? b.handle = some (.block blk) := by
  cases hb with
  | @alloc scope size hact hid hreply =>
    have hperform : s.act.perform s.before = (s.before.alloc scope.site size).2 := by
      rw [hact, Act.perform_within hid, ScopeOp.perform]
    rw [hperform] at hf ⊢
    unfold Vm.alloc at hreply hf ⊢
    split at hreply
    · next hroom =>
      rw [if_pos hroom] at hf ⊢
      have hget := Handle.Table.get?_insert_self hs hf
      rw [Option.some.inj hreply] at hget
      exact ⟨_, hget⟩
    · cases hreply
  | wrap hact hreply =>
    have hperform : s.act.perform s.before = s.before := by
      rw [hact, Act.perform]
      cases s.before.scopes.get? b.scope <;> rfl
    rw [hperform]
    obtain ⟨o, ho, hkind⟩ := Vm.isKind_iff.mp hreply
    cases o with
    | block blk => exact ⟨blk, ho⟩
    | _ => cases hkind

/-! ### Requests to resize -/

variable {b' : BlockRef}

theorem resized_eq_ok_iff : b.resized vm scope n = (.ok b', vm') ↔
    n ≠ 0 ∧ ∃ k, vm.resize scope.site b.handle n = (some k, vm') ∧ b' = ⟨b.scope, k⟩ := by
  unfold resized
  split
  · next hn => simp [hn]
  · next hn =>
    split
    · next k after hr => simp [hn, hr, and_comm, eq_comm]
    · next after hr => simp [hr]

theorem resized_eq_error_iff : b.resized vm scope n = (.error b', vm') ↔
    b' = b ∧ (n = 0 ∧ vm' = vm ∨
      n ≠ 0 ∧ vm.resize scope.site b.handle n = (none, vm')) := by
  unfold resized
  split
  · next hn => simp [hn, eq_comm]
  · next hn =>
    split
    · next k after hr => simp [hn, hr]
    · next after hr => simp [hn, hr, eq_comm]

end BlockRef

namespace Vm

/-- What is not null is given a size that is not zero exactly if it is a block and the budget has
room for it at that size. -/
theorem exists_resize_iff (hx : Balanced vm.holdings) (site : Site) {h : Handle}
    (hnull : h ≠ Handle.null) (hn : n ≠ 0) :
    (∃ k vm', vm.resize site h n = (some k, vm')) ↔
      ∃ blk, vm.object? h = some (.block blk) ∧
        (vm.heap.usedSlots.toNat : ℤ) - blk.cells.size + n.toNat ≤
          vm.options.maxHeapSlots.toNat := by
  have hsome : (∃ k vm', vm.resize site h n = (some k, vm')) ↔
      (vm.resize site h n).1.isSome = true := by
    rw [Option.isSome_iff_exists]
    exact ⟨fun ⟨k, vm', hr⟩ => ⟨k, congrArg Prod.fst hr⟩, fun ⟨k, hk⟩ => ⟨k, _, Prod.ext hk rfl⟩⟩
  rw [hsome]
  constructor
  · intro hr
    cases hb : vm.block h with
    | error e => simp [resize, Handle.isNull_iff, hnull, hn, resizeBlock, hb] at hr
    | ok blk =>
      have hg := block_eq_ok.mp hb
      have hle : blk.cells.size ≤ vm.heap.usedSlots.toNat := (hx.slots_le hg).1
      have hroom := (isSome_resize hx site hb hn).mp hr
      exact ⟨blk, hg, by omega⟩
  · rintro ⟨blk, hg, hroom⟩
    have hle : blk.cells.size ≤ vm.heap.usedSlots.toNat := (hx.slots_le hg).1
    exact (isSome_resize hx site (block_eq_ok.mpr hg) hn).mpr (by omega)

theorem Protests.holdings_eq (h : vm.Protests scope vm') : vm'.holdings = vm.holdings := by
  obtain ⟨severity, message, rfl, -⟩ := h
  exact vm.holdings_report ..

end Vm

namespace BlockRef

theorem exists_resized_ok_iff (hx : Balanced vm.holdings) (hnull : b.handle ≠ Handle.null) :
    (∃ b' vm', b.resized vm scope n = (.ok b', vm')) ↔
      n ≠ 0 ∧ ∃ blk, vm.object? b.handle = some (.block blk) ∧
        (vm.heap.usedSlots.toNat : ℤ) - blk.cells.size + n.toNat ≤
          vm.options.maxHeapSlots.toNat := by
  constructor
  · rintro ⟨b', vm', hr⟩
    obtain ⟨hn, k, hk, -⟩ := resized_eq_ok_iff.mp hr
    exact ⟨hn, (Vm.exists_resize_iff hx scope.site hnull hn).mp ⟨k, vm', hk⟩⟩
  · rintro ⟨hn, hroom⟩
    obtain ⟨k, vm', hk⟩ := (Vm.exists_resize_iff hx scope.site hnull hn).mpr hroom
    exact ⟨_, vm', resized_eq_ok_iff.mpr ⟨hn, k, hk, rfl⟩⟩

/-- A request that succeeds gives the block that was held another size. -/
theorem resized_ok {blk : Heap.Block} (hblk : vm.object? b.handle = some (.block blk))
    (hr : b.resized vm scope n = (.ok b', vm')) :
    b' = b ∧ vm.Reshaped b.handle (blk.resize n) vm' ∧ vm'.blockSize b.handle = .ok n ∧
      ∀ i, i < n → i.toNat < blk.cells.size →
        vm'.holdings.cell? b.handle i = vm.holdings.cell? b.handle i := by
  obtain ⟨hn, k, hk, rfl⟩ := resized_eq_ok_iff.mp hr
  obtain ⟨rfl, hreshaped⟩ := Vm.resize_eq_some hblk hk
  refine ⟨rfl, hreshaped, ?_, fun i hi hold => ?_⟩
  · rw [Vm.blockSize, Vm.block_eq_ok.mpr hreshaped.block, Except.map, Heap.Block.size_resize]
  · obtain ⟨c, hc⟩ := Option.isSome_iff_exists.mp ((blk.cell?_isSome_iff i).mpr hold)
    rw [Holdings.cell?_of_block (x := vm'.holdings) hreshaped.block,
      Holdings.cell?_of_block (x := vm.holdings) hblk, Heap.Block.cell?_resize, if_pos hi, hc]
    rfl

/-- A request that fails changes nothing that the machine holds. -/
theorem resized_error (hr : b.resized vm scope n = (.error b', vm')) :
    b' = b ∧ vm'.holdings = vm.holdings ∧ (n = 0 → vm' = vm) ∧ (n ≠ 0 → vm.Protests scope vm') := by
  obtain ⟨rfl, ⟨hn, rfl⟩ | ⟨hn, hk⟩⟩ := resized_eq_error_iff.mp hr
  · exact ⟨rfl, rfl, fun _ => rfl, fun hne => absurd hn hne⟩
  · have hprotest : vm.Protests scope (vm.resize scope.site b'.handle n).2 :=
      Vm.protests_resize (fun _ => hn) (fun hzero => absurd hzero hn) (congrArg Prod.fst hk)
    rw [hk] at hprotest
    exact ⟨rfl, hprotest.holdings_eq, fun hzero => absurd hzero hn, fun _ => hprotest⟩

end BlockRef

/-- **Held blocks.** A program that allocates a block or wraps a handle makes one step, and what it
is given to hold is what it obtains by that step. Let native code have obtained a block by a step of
the history. Whatever has happened since, a request to give it the size `n` comes down to
`BlockRef.resized`:

* the handle that is held is not null, and as long as it resolves it addresses what has become of
  that very block;
* the request succeeds exactly if `n` is not zero, the block is there, and the budget has room for
  it at its new size. Then what is held is the same as before, the block has the size `n` and the
  cells that both sizes have, and all other handles address what they did;
* a request that fails hands back what was held, and leaves the table with all blocks, the counters
  and all else that the machine holds as it was. For size zero nothing happens at all, and else
  there is one report;
* a request for a block that was freed fails. -/
theorem held_block_resize {options : Options} {memory : σ} {earlier later : List (Step σ)}
    {s : Step σ} (h : Steps (Vm.new options memory) (earlier ++ s :: later) vm)
    (hf : vm.table.Addressable) (hb : b.Obtained s) (scope : Scope) (n : UInt64) :
    (∀ (r : Role) (enter : Enter σ) (frame : Frame σ) (any : Vm σ) id scope,
      frame.scope? any id = some scope →
        (∀ size, ∃ reply, (∀ next : Option BlockRef → Program σ r,
          (BlockRef.alloc id size next).eval enter frame any = (next reply).eval enter frame
            (Act.perform any (.within id (.alloc size)))) ∧
          ∀ b, reply = some b ↔ b.Obtained ⟨any, .within id (.alloc size)⟩) ∧
        ∀ h, ∃ reply, (∀ next : Except BridgeError BlockRef → Program σ r,
          (BlockRef.wrap id h next).eval enter frame any = (next reply).eval enter frame
            (Act.perform any (.within id (.isKind h .block)))) ∧
          ∀ b, reply = .ok b ↔ b.Obtained ⟨any, .within id (.isKind h .block)⟩) ∧
    (∀ (r : Role) (enter : Enter σ) (frame : Frame σ)
      (next : Except BlockRef BlockRef → Program σ r), frame.scope? vm b.scope = some scope →
        (b.resize n next).eval enter frame vm =
          (next (b.resized vm scope n).1).eval enter frame (b.resized vm scope n).2) ∧
    b.handle ≠ Handle.null ∧
    (∃ blk, (s.act.perform s.before).object? b.handle = some (.block blk) ∧
      vm.Follows b.handle (.block blk) later) ∧
    ((∃ b' vm', b.resized vm scope n = (.ok b', vm')) ↔
      n ≠ 0 ∧ ∃ blk, vm.object? b.handle = some (.block blk) ∧
        (vm.heap.usedSlots.toNat : ℤ) - blk.cells.size + n.toNat ≤
          options.maxHeapSlots.toNat) ∧
    (∀ b' vm', b.resized vm scope n = (.ok b', vm') → b' = b ∧
      ∃ blk, vm.object? b.handle = some (.block blk) ∧
        vm.Reshaped b.handle (blk.resize n) vm' ∧ vm'.blockSize b.handle = .ok n ∧
        ∀ i, i < n → i.toNat < blk.cells.size →
          vm'.holdings.cell? b.handle i = vm.holdings.cell? b.handle i) ∧
    (∀ b' vm', b.resized vm scope n = (.error b', vm') → b' = b ∧ vm'.holdings = vm.holdings ∧
      (n = 0 → vm' = vm) ∧ (n ≠ 0 → vm.Protests scope vm')) ∧
    (.removed b.handle ∈ fatesOf later →
      ∃ vm', b.resized vm scope n = (.error b, vm') ∧ vm'.holdings = vm.holdings) := by
  have hs := Vm.sound_new options memory
  have hbefore : Steps (Vm.new options memory) earlier s.before := h.reached_at rfl
  have hafter : Steps (Vm.new options memory) (earlier ++ [s]) (s.act.perform s.before) :=
    hbefore.snoc s.act (h.allowed_at rfl)
  have h' : Steps (Vm.new options memory) (earlier ++ [s] ++ later) vm := by simpa using h
  obtain ⟨blk, hblk⟩ := hb.object? (hbefore.sound hs (hbefore.addressable_at h hf))
    (hafter.addressable_at h' hf)
  have hfollows := hafter.follows h' hf hblk
  have hnull : b.handle ≠ Handle.null := by
    intro e
    rw [e] at hblk
    cases hblk
  have hiff : (∃ b' vm', b.resized vm scope n = (.ok b', vm')) ↔ _ :=
    BlockRef.exists_resized_ok_iff (h.balanced hf) hnull
  rw [h.budget_eq] at hiff
  refine ⟨fun r enter frame any id scope hid => ⟨BlockRef.eval_alloc hid, BlockRef.eval_wrap hid⟩,
    fun r enter frame next hid => BlockRef.eval_resize hid next, hnull,
    ⟨blk, hblk, hfollows⟩, hiff, fun b' vm' hr => ?_, fun b' vm' => BlockRef.resized_error,
    fun hremoved => ?_⟩
  · obtain ⟨-, blk', hblk', -⟩ := hiff.mp ⟨b', vm', hr⟩
    obtain ⟨he, hreshaped⟩ := BlockRef.resized_ok hblk' hr
    exact ⟨he, blk', hblk', hreshaped⟩
  · rcases hr : b.resized vm scope n with ⟨b' | b', vm'⟩
    · obtain ⟨rfl, hholds, -⟩ := BlockRef.resized_error hr
      exact ⟨vm', rfl, hholds⟩
    · obtain ⟨-, blk', hblk', -⟩ := hiff.mp ⟨b', vm', hr⟩
      exact absurd hremoved (hfollows.live.mp (Handle.Table.contains_iff.mpr ⟨_, hblk'⟩))

/-- A program allocates a block and frees it, and another one takes its slot. -/
def reusedTour : List (Act Unit) :=
  [.within ⟨0⟩ (.alloc 1), .within ⟨0⟩ (.free (.ofParts 4 1)), .within ⟨0⟩ (.alloc 1)]

/-- Who still holds the first block cannot resize it, and the other one stays as it is. -/
theorem held_block_resize_reusedTour :
    let vm := midTour.performAll reusedTour
    let scope : Scope := ⟨.ofParts 0 1, .ofParts 1 1, [.ofParts 2 1, .ofParts 2 2]⟩
    vm.isLive (.ofParts 4 2) = true ∧
      ∃ vm', BlockRef.resized ⟨⟨0⟩, .ofParts 4 1⟩ vm scope 3 = (.error ⟨⟨0⟩, .ofParts 4 1⟩, vm') ∧
        vm'.holdings = vm.holdings := by
  intro vm scope
  obtain ⟨past, hpast⟩ := steps_midTour
  have hlater : Steps midTour (midTour.stepsOf reusedTour) vm :=
    Vm.steps_performAll midTour (by decide +kernel)
  have hobtained : BlockRef.Obtained ⟨⟨0⟩, .ofParts 4 1⟩ ⟨midTour, .within ⟨0⟩ (.alloc 1)⟩ :=
    .alloc rfl scope_midTour (by decide +kernel)
  obtain ⟨-, -, -, ⟨blk, -, hfollows⟩, -, -, -, hfreed⟩ := held_block_resize (hpast.trans hlater)
    (by unfold Handle.Table.Addressable; decide +kernel) hobtained scope 3
  refine ⟨by decide +kernel, hfreed ?_⟩
  by_contra hremoved
  exact absurd (hfollows.live.mpr hremoved) (by decide +kernel)

end NativeBridge
