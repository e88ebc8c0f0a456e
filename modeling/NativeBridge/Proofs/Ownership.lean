import NativeBridge.Proofs.Census
import NativeBridge.Proofs.Machine.Mint

/-!
# The ownership of scalars

Every live scalar is in the locals of exactly one open scope, exactly once: of the scope that it was
minted through (`scalar_ownership`). So no scalar outlives its scope. What is live at any moment
are the modules, their functions, the blocks, and the live locals of the open scopes; and when a
call is over, whether its body returned or faulted, nothing is left that was minted through the
scopes opened for it.
-/

namespace NativeBridge

open Handle.Table (Addressable Sound)

variable {σ : Type}

/-! ### Mintings of histories -/

/-- What moves mint, in order. -/
def Holdings.mints (x : Holdings σ) : List (Move σ) → MintLog
  | [] => []
  | m :: ms => m.mints x ++ (m.apply x).mints ms

theorem Holdings.mints_append (x : Holdings σ) (ms ns : List (Move σ)) :
    x.mints (ms ++ ns) = x.mints ms ++ (x.after ms).mints ns := by
  induction ms generalizing x with
  | nil => rfl
  | cons m ms ih => simp [mints, ih]

theorem Owned.after {log : MintLog} {x : Holdings σ} {ms : List (Move σ)} (hs : x.table.Sound)
    (hm : Moves x ms) (hf : (x.after ms).table.Addressable) (hx : Owned log x) :
    Owned (log ++ x.mints ms) (x.after ms) := by
  induction ms generalizing x log with
  | nil => simpa [Holdings.mints] using hx
  | cons m ms ih =>
    have hf' := Holdings.addressable_of_after (x := m.apply x) hf
    rw [Holdings.mints, ← List.append_assoc]
    exact ih (Handle.Table.sound_replay hs hf') hm.2 hf (hx.apply hs hm.1 hf')

/-- What a step mints: the scopes, and the handles that are minted through them. -/
def Step.mints (s : Step σ) : MintLog := s.before.holdings.mints (s.act.moves s.before)

/-- What steps mint, in order. -/
def mintsOf (steps : List (Step σ)) : MintLog := steps.flatMap Step.mints

theorem Steps.mints_eq {vm₀ vm : Vm σ} {steps : List (Step σ)} (h : Steps vm₀ steps vm) :
    vm₀.holdings.mints (movesOf steps) = mintsOf steps := by
  induction h with
  | refl => rfl
  | snoc act hpast ha ih =>
    rw [movesOf_append, movesOf_singleton, Holdings.mints_append, ih, ← hpast.holdings_eq, mintsOf,
      mintsOf, List.flatMap_append]
    simp [Step.mints]

theorem owned_new (options : Options) (memory : σ) : Owned [] (Vm.new options memory).holdings where
  nodup := List.nodup_nil
  issued _ he := nomatch he
  numbered _ he := nomatch he
  counted := Vm.scopesCounted_new options memory
  keys := List.nodup_nil
  locals _ _ hid := nomatch hid
  owner _ _ hg := by
    rw [Vm.table_holdings, Vm.new, Handle.Table.get?_empty] at hg
    cases hg
  scalar _ he := nomatch he

/-- At every moment the open scopes own the live scalars, as the history says. -/
theorem Steps.owned {options : Options} {memory : σ} {steps : List (Step σ)} {vm : Vm σ}
    (h : Steps (Vm.new options memory) steps vm) (hf : vm.table.Addressable) :
    Owned (mintsOf steps) vm.holdings := by
  have hs := Vm.sound_new options memory
  have howned := (owned_new options memory).after hs (h.moves hs hf) (h.holdings_eq ▸ hf)
  rwa [h.mints_eq, ← h.holdings_eq] at howned

/-! ### Live locals -/

/-- The locals of open scopes that are still live. -/
def Vm.liveLocals (vm : Vm σ) : List Handle :=
  vm.scopes.entries.flatMap fun e => e.2.locals.filter vm.isLive

namespace Owned

variable {vm : Vm σ} {log : MintLog}

theorem locals_of_mem_entries (hx : Owned log vm.holdings) {e : ScopeId × Scope}
    (he : e ∈ vm.scopes.entries) : e.2.locals = log.through e.1 :=
  hx.locals e.1 e.2 ((Dict.mem_entries_iff hx.keys).mp he)

/-- Exactly the live scalars are live locals. -/
theorem mem_liveLocals (hx : Owned log vm.holdings) {h : Handle} :
    h ∈ vm.liveLocals ↔ ∃ s, vm.object? h = some (.scalar s) := by
  constructor
  · intro hh
    obtain ⟨e, he, hlocal⟩ := List.mem_flatMap.mp hh
    obtain ⟨hmem, hlive⟩ := List.mem_filter.mp hlocal
    rw [hx.locals_of_mem_entries he, MintLog.mem_through] at hmem
    obtain ⟨o, ho⟩ := Handle.Table.contains_iff.mp hlive
    obtain ⟨s, rfl⟩ := hx.scalar _ hmem o ho
    exact ⟨s, ho⟩
  · rintro ⟨s, hs⟩
    -- the scope that it was minted through is open and has it among its locals
    obtain ⟨id, hlog, hopen⟩ := hx.owner h s hs
    obtain ⟨site, hsite⟩ := Option.ne_none_iff_exists'.mp hopen
    obtain ⟨scope, hscope, -⟩ := Option.map_eq_some_iff.mp hsite
    refine List.mem_flatMap.mpr ⟨(id, scope), (Dict.mem_entries_iff hx.keys).mpr hscope, ?_⟩
    rw [List.mem_filter, hx.locals id scope hscope, MintLog.mem_through]
    exact ⟨hlog, Handle.Table.contains_iff.mpr ⟨_, hs⟩⟩

/-- No live scalar is a local twice. -/
theorem nodup_liveLocals (hx : Owned log vm.holdings) : vm.liveLocals.Nodup := by
  have hkeys : vm.scopes.entries.Pairwise fun e e' => e.1 ≠ e'.1 := List.pairwise_map.mp hx.keys
  refine List.nodup_flatMap.mpr ⟨fun e he => ?_, hkeys.imp_of_mem fun he he' hne => ?_⟩
  · rw [hx.locals_of_mem_entries he]
    exact (MintLog.nodup_through hx.nodup e.1).filter _
  · intro h hh hh'
    have hmem := (List.mem_filter.mp hh).1
    have hmem' := (List.mem_filter.mp hh').1
    rw [hx.locals_of_mem_entries he, MintLog.mem_through] at hmem
    rw [hx.locals_of_mem_entries he', MintLog.mem_through] at hmem'
    exact hne (MintLog.scope_unique hx.nodup hmem hmem')

theorem total_scalars (hx : Owned log vm.holdings) :
    vm.table.total Object.scalars = vm.liveLocals.length := by
  refine Handle.Table.total_eq_length hx.nodup_liveLocals fun h => ?_
  have hmem := hx.mem_liveLocals (h := h)
  by_cases hlocal : h ∈ vm.liveLocals
  · obtain ⟨s, hs⟩ := hmem.mp hlocal
    rw [if_pos hlocal, show vm.table.get? h = some (.scalar s) from hs]
    rfl
  · rw [if_neg hlocal]
    cases hg : vm.table.get? h with
    | none => rfl
    | some o =>
      cases o with
      | scalar s => exact absurd (hmem.mpr ⟨s, hg⟩) hlocal
      | _ => rfl

/-- What was minted through a scope that is closed is dead. -/
theorem isLive_eq_false (hx : Owned log vm.holdings) {e : ScopeId × Handle} (he : e ∈ log)
    (hclosed : vm.siteOf e.1 = none) : vm.isLive e.2 = false := by
  rw [Bool.eq_false_iff]
  intro hlive
  obtain ⟨o, ho⟩ := Handle.Table.contains_iff.mp hlive
  obtain ⟨s, rfl⟩ := hx.scalar e he o ho
  obtain ⟨id, hid, hopen⟩ := hx.owner e.2 s ho
  rw [MintLog.scope_unique hx.nodup hid he] at hopen
  exact hopen hclosed

end Owned

/-! ### Calls -/

/-- The machine `vm'` is reached from `vm`, and nothing that was minted through the scopes opened in
the meantime is live, whichever history led there. -/
def Settled (vm₀ vm vm' : Vm σ) : Prop :=
  (∃ steps, Steps vm steps vm') ∧ ∀ steps, Steps vm₀ steps vm' →
    ∀ e ∈ mintsOf steps, vm.scopesOpened ≤ e.1.number → vm'.isLive e.2 = false

/-- Where the same scopes are open as before, what was minted since then is settled. -/
theorem settled_of_sameSites {options : Options} {memory : σ} {vm vm' : Vm σ}
    (hvm : vm.ScopesCounted) (hsteps : ∃ steps, Steps vm steps vm') (hsame : vm.SameSites vm')
    (hf : vm'.table.Addressable) : Settled (Vm.new options memory) vm vm' := by
  refine ⟨hsteps, fun steps h e he hle => (h.owned hf).isLive_eq_false he ?_⟩
  rw [hsame e.1, Vm.siteOf_of_le hvm hle]

/-- A part of a run that ends with the scopes as they were leaves nothing behind that was minted
through the scopes opened for it. -/
theorem Leads.settled {α : Type} {options : Options} {memory : σ} {vm vm' : Vm σ} {o : Outcome σ α}
    {post : α → Vm σ → Prop} (h : Leads vm o post) (hvm : vm.ScopesCounted) {a : α}
    (ho : o = .finished a vm') (hsame : ∀ a vm', post a vm' → vm.SameSites vm')
    (hf : vm'.table.Addressable) : Settled (Vm.new options memory) vm vm' := by
  obtain ⟨steps, hsteps⟩ := h.steps
  rw [ho] at hsteps
  exact settled_of_sameSites hvm ⟨steps, hsteps⟩ (hsame a vm' (h.post a vm' ho)) hf

/-- **Scalars belong to their scopes.** In every state that a machine reaches:

* a live scalar is a local of exactly one open scope, exactly once, and it was minted through that
  scope;
* all that is live are the modules, the functions of modules (their top-level code included), the
  blocks, and the live locals of the open scopes;
* when no scope is open, no scalar is live;
* when a body that was entered has returned or faulted, nothing is live that was minted through its
  scope (the first one opened for it) or through any scope opened after that, and the same holds
  when a call through a scope or an invocation by the host has ended. -/
theorem scalar_ownership {options : Options} {memory : σ} {steps : List (Step σ)} {vm : Vm σ}
    (h : Steps (Vm.new options memory) steps vm) (hf : vm.table.Addressable) :
    (∀ k s, vm.object? k = some (.scalar s) →
      ∃ id scope, vm.scopes.get? id = some scope ∧ scope.locals.count k = 1 ∧
        (id, k) ∈ mintsOf steps ∧
        ∀ id' scope', vm.scopes.get? id' = some scope' → k ∈ scope'.locals → id' = id) ∧
    vm.usage.liveHandles = vm.modules.size + vm.table.total Object.members +
      vm.heap.liveBlocks.toNat + vm.liveLocals.length ∧
    (vm.scopes.entries = [] → ∀ k s, vm.object? k ≠ some (.scalar s)) ∧
    (∀ fuel function callee args completion vm', vm.object? function = some (.function callee) →
      enterBody (run fuel) function callee args vm = .finished completion vm' →
      vm'.table.Addressable → Settled (Vm.new options memory) vm vm') ∧
    (∀ fuel id scope function shape args result vm', vm.scopes.get? id = some scope →
      callFunction (run fuel) id scope function shape args vm = .finished result vm' →
      vm'.table.Addressable → Settled (Vm.new options memory) vm vm') ∧
    ∀ fuel function args result vm',
      invokeFunction (run fuel) function args vm = .finished result vm' →
      vm'.table.Addressable → Settled (Vm.new options memory) vm vm' := by
  have howned := h.owned hf
  have hvm : vm.ScopesCounted := howned.counted
  refine ⟨fun k s hk => ?_, ?_, fun hnone k s hk => ?_, ?_, ?_, ?_⟩
  · obtain ⟨id, hlog, hopen⟩ := howned.owner k s hk
    obtain ⟨site, hsite⟩ := Option.ne_none_iff_exists'.mp hopen
    obtain ⟨scope, hscope, -⟩ := Vm.siteOf_eq_some.mp hsite
    refine ⟨id, scope, hscope, ?_, hlog, fun id' scope' hscope' hmem => ?_⟩
    · rw [howned.locals id scope hscope]
      exact List.count_eq_one_of_mem (MintLog.nodup_through howned.nodup id)
        (MintLog.mem_through.mpr hlog)
    · rw [howned.locals id' scope' hscope', MintLog.mem_through] at hmem
      exact MintLog.scope_unique howned.nodup hmem hlog
  · rw [← howned.total_scalars]
    exact (h.census hf).live_eq (h.balanced hf)
  · have hmem := howned.mem_liveLocals.mpr ⟨s, hk⟩
    simp [Vm.liveLocals, hnone] at hmem
  · intro fuel function callee args completion vm' hcallee hrun hf'
    exact (leads_enterBody (enters_run fuel) hvm hcallee args).settled hvm hrun
      (fun _ _ hpost => hpost.1) hf'
  · intro fuel id scope function shape args result vm' hid hrun hf'
    exact (leads_callFunction (enters_run fuel) hvm hid function shape args).settled hvm hrun
      (fun _ _ hpost => hpost) hf'
  · intro fuel function args result vm' hrun hf'
    exact (leads_invokeFunction (enters_run fuel) hvm function args).settled hvm hrun
      (fun _ _ hpost => hpost) hf'

/-- In the midst of the tour, the module, its top-level code, the block and the text are live, and
the text is the one scalar that an open scope owns. -/
theorem scalar_ownership_midTour :
    ∃ steps, Steps (.new .default ()) steps midTour ∧ midTour.table.Addressable ∧
      (∃ id scope, midTour.scopes.get? id = some scope ∧
        scope.locals.count (.ofParts 2 2) = 1 ∧ (id, .ofParts 2 2) ∈ mintsOf steps) ∧
      4 = 1 + midTour.table.total Object.members + 1 + [Handle.ofParts 2 2].length := by
  obtain ⟨steps, h⟩ := steps_midTour
  have hlocals : midTour.liveLocals = [.ofParts 2 2] := by decide +kernel
  obtain ⟨s, hs⟩ := (h.owned addressable_midTour).mem_liveLocals.mp
    (hlocals ▸ List.mem_singleton_self (Handle.ofParts 2 2))
  obtain ⟨howner, hlive, -⟩ := scalar_ownership h addressable_midTour
  obtain ⟨id, scope, hscope, hcount, hmint, -⟩ := howner _ s hs
  have hhandles : midTour.usage.liveHandles = 4 := by decide +kernel
  have hmodules : midTour.modules.size = 1 := by decide +kernel
  have hblocks : midTour.heap.liveBlocks.toNat = 1 := by decide +kernel
  rw [hhandles, hmodules, hblocks, hlocals] at hlive
  exact ⟨steps, h, addressable_midTour, ⟨id, scope, hscope, hcount, hmint⟩, hlive⟩

end NativeBridge
