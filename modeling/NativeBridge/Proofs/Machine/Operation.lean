import NativeBridge.Proofs.Machine.Move

/-!
# Operations as moves

For each operation on scalars, scopes and blocks, the moves that it makes of the holdings. An
operation that fails makes none.
-/

namespace NativeBridge

open Handle.Table (Addressable Sound)

variable {σ : Type}

namespace Vm

@[simp] theorem table_holdings (vm : Vm σ) : vm.holdings.table = vm.table := rfl

@[simp] theorem scopes_holdings (vm : Vm σ) : vm.holdings.scopes = vm.scopes := rfl

@[simp] theorem modules_holdings (vm : Vm σ) : vm.holdings.modules = vm.modules := rfl

@[simp] theorem heap_holdings (vm : Vm σ) : vm.holdings.heap = vm.heap := rfl

@[simp] theorem budget_holdings (vm : Vm σ) : vm.holdings.budget = vm.options.maxHeapSlots := rfl

@[simp] theorem scopesOpened_holdings (vm : Vm σ) :
    vm.holdings.scopesOpened = vm.scopesOpened := rfl

theorem isLive_eq_isSome (vm : Vm σ) (h : Handle) : vm.isLive h = (vm.object? h).isSome := rfl

/-! ### Reports and events -/

@[simp] theorem holdings_record (vm : Vm σ) (e : Event) :
    (vm.record e).holdings = vm.holdings := rfl

@[simp] theorem holdings_push (vm : Vm σ) (owner : Handle) (r : Report) :
    (vm.push owner r).holdings = vm.holdings := by
  unfold push
  split <;> split <;> rfl

@[simp] theorem holdings_report (vm : Vm σ) (site : Site) (native : Bool) (severity : Severity)
    (message : Message) : (vm.report site native severity message).holdings = vm.holdings :=
  holdings_push ..

/-! ### Scalars -/

/-- The moves that make a value a handle. -/
def mintMoves (id : ScopeId) : Value → List (Move σ)
  | .scalar s => [.mint id s]
  | _ => []

theorem holdings_mint (vm : Vm σ) (id : ScopeId) (v : Value) :
    (vm.mint id v).2.holdings = vm.holdings.after (mintMoves id v) := by
  cases v with
  | null => rfl
  | ref h => rfl
  | scalar s =>
    cases hid : vm.scopes.get? id <;>
      simp [mint, addLocal, hid, mintMoves, Move.apply, Move.scopes, Move.modules, Move.heap,
        Move.scopesOpened, Move.changes, holdings, Handle.Table.apply]

theorem moves_mint {vm : Vm σ} {id : ScopeId} {scope : Scope} (hid : vm.scopes.get? id = some scope)
    (v : Value) : Moves vm.holdings (mintMoves id v) := by
  cases v with
  | scalar s => exact ⟨⟨scope, hid⟩, trivial⟩
  | _ => trivial

theorem table_mint_scalar (vm : Vm σ) (id : ScopeId) (s : Scalar) :
    (vm.mint id (.scalar s)).2.table = (vm.table.insert (.scalar s)).2 := by
  simp only [mint, addLocal]
  split <;> rfl

theorem addressable_of_mint {vm : Vm σ} {id : ScopeId} {v : Value}
    (hf : (vm.mint id v).2.table.Addressable) : vm.table.Addressable := by
  rw [← table_holdings, holdings_mint] at hf
  exact Holdings.addressable_of_after hf

/-- A handle that a scope mints for a scalar was never issued before, and it addresses the
scalar. -/
theorem mint_scalar {vm : Vm σ} (ht : vm.table.Sound) {id : ScopeId} {s : Scalar}
    (hf : (vm.mint id (.scalar s)).2.table.Addressable) :
    ¬ vm.table.Issued (vm.mint id (.scalar s)).1 ∧
      (vm.mint id (.scalar s)).2.object? (vm.mint id (.scalar s)).1 = some (.scalar s) := by
  rw [table_mint_scalar] at hf
  refine ⟨Handle.Table.not_issued_insert ht hf, ?_⟩
  rw [object?, table_mint_scalar]
  exact Handle.Table.get?_insert_self ht hf

/-- The moves that release those of some handles that address scalars. -/
def releases (t : Handle.Table (Object σ)) : List Handle → List (Move σ)
  | [] => []
  | h :: hs =>
    match t.get? h with
    | some (.scalar _) => .release h :: releases (t.remove h) hs
    | _ => releases t hs

theorem holdings_release (vm : Vm σ) (h : Handle) :
    (vm.release h).2.holdings = vm.holdings.after (releases vm.table [h]) := by
  unfold release object?
  split <;> simp_all [releases, Move.apply, Move.scopes, Move.modules, Move.heap,
    Move.scopesOpened, Move.changes, holdings, Handle.Table.apply]

theorem releases_cons (vm : Vm σ) (h : Handle) (hs : List Handle) :
    releases vm.table (h :: hs) =
      releases vm.table [h] ++ releases (vm.release h).2.table hs := by
  unfold release object?
  split <;> simp_all [releases]

theorem holdings_releaseAll (vm : Vm σ) (hs : List Handle) :
    (vm.releaseAll hs).2.holdings = vm.holdings.after (releases vm.table hs) := by
  induction hs generalizing vm with
  | nil => rfl
  | cons h hs ih =>
    rw [releases_cons, Holdings.after_append, ← holdings_release]
    exact ih _

theorem moves_releases (x : Holdings σ) (hs : List Handle) : Moves x (releases x.table hs) := by
  induction hs generalizing x with
  | nil => trivial
  | cons h hs ih =>
    unfold releases
    split
    · next s hg => exact ⟨⟨s, hg⟩, ih (Move.apply x (.release h))⟩
    · exact ih x

/-- Releasing changes neither the scopes nor the number of slots. -/
theorem scopes_after_releases (x : Holdings σ) (hs : List Handle) :
    (x.after (releases x.table hs)).scopes = x.scopes := by
  induction hs generalizing x with
  | nil => rfl
  | cons h hs ih =>
    unfold releases
    split
    · exact ih (Move.apply x (.release h))
    · exact ih x

/-- Of what is released no scalar stays. -/
theorem get?_after_releases {x : Holdings σ} {hs : List Handle} (ht : x.table.Sound) :
    (x.after (releases x.table hs)).table.Sound ∧
      ∀ k, (x.after (releases x.table hs)).table.get? k =
        match x.table.get? k with
        | some (.scalar s) => if k ∈ hs then none else some (.scalar s)
        | o => o := by
  induction hs generalizing x with
  | nil =>
    refine ⟨ht, fun k => ?_⟩
    simp only [releases, Holdings.after_nil, List.not_mem_nil, if_false]
    split <;> simp_all
  | cons h hs ih =>
    unfold releases
    split
    · next s hg =>
      obtain ⟨hs', hget⟩ := ih (x := Move.apply x (.release h)) (Handle.Table.sound_remove ht h)
      refine ⟨hs', fun k => (hget k).trans ?_⟩
      simp only [Move.table_apply, Move.changes, Handle.Table.replay_cons,
        Handle.Table.replay_nil, Handle.Table.apply, Handle.Table.get?_remove ht, List.mem_cons]
      by_cases hk : k = h
      · simp [hk, hg]
      · simp [hk]
    · next hg =>
      obtain ⟨hs', hget⟩ := ih ht
      refine ⟨hs', fun k => (hget k).trans ?_⟩
      split
      · next s hk =>
        have hne : k ≠ h := fun e => hg s (e ▸ hk)
        simp [hne]
      · rfl

/-- The moves that close a scope. -/
def closeMoves (vm : Vm σ) (id : ScopeId) : List (Move σ) :=
  match vm.scopes.get? id with
  | none => []
  | some scope => releases vm.table scope.locals ++ [.closeScope id]

/-- It does not matter whether a scope is dropped before its scalars are released or after. -/
theorem after_releases_erase (x : Holdings σ) (id : ScopeId) (hs : List Handle) :
    { x with scopes := x.scopes.erase id }.after (releases x.table hs) =
      Move.apply (x.after (releases x.table hs)) (.closeScope id) := by
  induction hs generalizing x with
  | nil => rfl
  | cons h hs ih =>
    unfold releases
    split
    · exact ih (Move.apply x (.release h))
    · exact ih x

theorem holdings_closeScope (vm : Vm σ) (id : ScopeId) :
    (vm.closeScope id).holdings = vm.holdings.after (vm.closeMoves id) := by
  cases hid : vm.scopes.get? id with
  | none => simp [closeScope, closeMoves, hid]
  | some scope =>
    have hclose : (vm.closeScope id).holdings =
        ({ vm with scopes := vm.scopes.erase id }.releaseAll scope.locals).2.holdings := by
      simp only [closeScope, hid]
      split
      · next hnil => rw [List.isEmpty_iff.mp hnil]; rfl
      · rfl
    rw [hclose, holdings_releaseAll, closeMoves, hid]
    simp only [Holdings.after_append]
    exact after_releases_erase vm.holdings id scope.locals

theorem moves_closeScope {vm : Vm σ} (ht : vm.table.Sound) (id : ScopeId) :
    Moves vm.holdings (vm.closeMoves id) := by
  cases hid : vm.scopes.get? id with
  | none => simp [closeMoves, hid]
  | some scope =>
    simp only [closeMoves, hid]
    -- when the scope is closed, its locals have been released before
    refine Moves.append.mpr ⟨moves_releases vm.holdings _, ?_, trivial⟩
    intro scope' hid' h hmem s hg
    rw [← table_holdings, scopes_after_releases, scopes_holdings, hid] at hid'
    cases hid'
    rw [← table_holdings, (get?_after_releases (x := vm.holdings) ht).2] at hg
    split at hg
    · simp [hmem] at hg
    · next hne => exact hne s hg

/-- What is no scalar outlives every scope. -/
theorem object?_closeScope {vm : Vm σ} (ht : vm.table.Sound) (id : ScopeId) {k : Handle}
    {o : Object σ} (ho : vm.object? k = some o) (hns : ∀ s, o ≠ .scalar s) :
    (vm.closeScope id).object? k = some o := by
  rw [object?, ← table_holdings, holdings_closeScope, closeMoves]
  split
  · exact ho
  · rw [Holdings.after_append]
    refine ((get?_after_releases (x := vm.holdings) ht).2 k).trans ?_
    rw [table_holdings, ← object?, ho]
    cases o with
    | scalar s => exact absurd rfl (hns s)
    | _ => rfl

/-! ### Blocks -/

theorem block_eq_ok {vm : Vm σ} {h : Handle} {b : Heap.Block} :
    vm.block h = .ok b ↔ vm.table.get? h = some (.block b) := by
  unfold block object?
  split <;> simp_all

theorem cell_eq_ok {vm : Vm σ} {h : Handle} {offset : UInt64} {b : Heap.Block} {c : Heap.Cell} :
    vm.cell h offset = .ok (b, c) ↔
      vm.table.get? h = some (.block b) ∧ b.cell? offset = some c := by
  rw [← block_eq_ok]
  unfold cell
  constructor
  · intro hcell
    split at hcell
    · cases hcell
    · next b' hb =>
      split at hcell
      · next c' hc => cases hcell; exact ⟨hb, hc⟩
      · cases hcell
  · rintro ⟨hb, hc⟩
    simp [hb, hc]

/-- The budget has room exactly if the total stays within it, in numbers without bound: a total that
overflows is beyond every budget. -/
theorem budgetAllows_iff {vm : Vm σ} {extra : UInt64} :
    vm.budgetAllows extra = true ↔
      vm.heap.usedSlots.toNat + extra.toNat ≤ vm.options.maxHeapSlots.toNat := by
  simp only [budgetAllows, Option.any_eq_true, Heap.checkedAdd?_eq_some_iff, decide_eq_true_iff,
    UInt64.le_iff_toNat_le]
  constructor
  · rintro ⟨total, htotal, hle⟩
    exact htotal ▸ hle
  · intro hle
    have htotal := UInt64.toNat_ofNat_of_lt' (hle.trans_lt vm.options.maxHeapSlots.toNat_lt_size)
    exact ⟨.ofNat _, htotal, htotal.trans_le hle⟩

/-- The moves of an allocation. -/
def allocMoves (vm : Vm σ) (size : UInt64) : List (Move σ) :=
  if vm.budgetAllows size then [.alloc size] else []

theorem mem_allocMoves {vm : Vm σ} {size : UInt64} {m : Move σ} (hm : m ∈ vm.allocMoves size) :
    m = .alloc size := by
  unfold allocMoves at hm
  split at hm
  · exact List.mem_singleton.mp hm
  · cases hm

theorem holdings_alloc (vm : Vm σ) (site : Site) (size : UInt64) :
    (vm.alloc site size).2.holdings = vm.holdings.after (vm.allocMoves size) := by
  unfold alloc allocMoves
  split
  · rfl
  · simp

theorem moves_alloc (vm : Vm σ) (size : UInt64) : Moves vm.holdings (vm.allocMoves size) := by
  unfold allocMoves
  split
  · next hroom => exact ⟨budgetAllows_iff.mp hroom, trivial⟩
  · trivial

/-- The moves of the end of a block's life. -/
def freeMoves (vm : Vm σ) (h : Handle) : List (Move σ) :=
  match vm.block h with
  | .ok _ => [.free h]
  | .error _ => []

theorem mem_freeMoves {vm : Vm σ} {h : Handle} {m : Move σ} (hm : m ∈ vm.freeMoves h) :
    m = .free h := by
  unfold freeMoves at hm
  split at hm
  · exact List.mem_singleton.mp hm
  · cases hm

theorem holdings_free (vm : Vm σ) (site : Site) (h : Handle) :
    (vm.free site h).holdings = vm.holdings.after (vm.freeMoves h) := by
  unfold free freeMoves
  split
  · next e he => simp [he]
  · next b hb =>
    have hg := block_eq_ok.mp hb
    simp [hb, Move.apply, Move.heap, Move.scopes, Move.modules, Move.scopesOpened, Move.changes,
      hg, holdings, Handle.Table.apply, record]

theorem moves_free (vm : Vm σ) (h : Handle) : Moves vm.holdings (vm.freeMoves h) := by
  unfold freeMoves
  split
  · next b hb => exact ⟨⟨b, block_eq_ok.mp hb⟩, trivial⟩
  · trivial

/-- The moves of a resize to a size that is not zero. -/
def resizeBlockMoves (vm : Vm σ) (h : Handle) (size : UInt64) : List (Move σ) :=
  match vm.block h with
  | .ok b => if b.size < size && !vm.budgetAllows (size - b.size) then [] else [.resize h size]
  | .error _ => []

theorem mem_resizeBlockMoves {vm : Vm σ} {h : Handle} {size : UInt64} {m : Move σ}
    (hm : m ∈ vm.resizeBlockMoves h size) : m = .resize h size := by
  unfold resizeBlockMoves at hm
  split at hm
  · split at hm
    · cases hm
    · exact List.mem_singleton.mp hm
  · cases hm

theorem holdings_resizeBlock (vm : Vm σ) (site : Site) (h : Handle) (size : UInt64) :
    (vm.resizeBlock site h size).2.holdings = vm.holdings.after (vm.resizeBlockMoves h size) := by
  cases hb : vm.block h with
  | error e => simp [resizeBlock, resizeBlockMoves, hb]
  | ok b =>
    have hg := block_eq_ok.mp hb
    simp only [resizeBlock, resizeBlockMoves, hb]
    split
    · simp
    · simp [Move.apply, Move.heap, Move.scopes, Move.modules, Move.scopesOpened, Move.changes,
        Move.edit, hg, holdings, Handle.Table.apply, record, setBlock]

theorem moves_resizeBlock (vm : Vm σ) (h : Handle) {size : UInt64} (hsize : size ≠ 0) :
    Moves vm.holdings (vm.resizeBlockMoves h size) := by
  unfold resizeBlockMoves
  split
  · next b hb =>
    split
    · trivial
    · next hroom =>
      refine ⟨⟨hsize, b, block_eq_ok.mp hb, fun hlt => budgetAllows_iff.mp ?_⟩, trivial⟩
      simpa [hlt] using hroom
  · trivial

/-- The moves of a resize. -/
def resizeMoves (vm : Vm σ) (h : Handle) (size : UInt64) : List (Move σ) :=
  if h.isNull then if size = 0 then [] else vm.allocMoves size
  else if size = 0 then vm.freeMoves h
  else vm.resizeBlockMoves h size

theorem holdings_resize (vm : Vm σ) (site : Site) (h : Handle) (size : UInt64) :
    (vm.resize site h size).2.holdings = vm.holdings.after (vm.resizeMoves h size) := by
  unfold resize resizeMoves
  split
  · split
    · rfl
    · exact holdings_alloc ..
  · split
    · exact holdings_free ..
    · exact holdings_resizeBlock ..

theorem moves_resize (vm : Vm σ) (h : Handle) (size : UInt64) :
    Moves vm.holdings (vm.resizeMoves h size) := by
  unfold resizeMoves
  split
  · split
    · trivial
    · exact moves_alloc ..
  · split
    · exact moves_free ..
    · next hsize => exact moves_resizeBlock _ _ hsize

/-- What a write of what `value` addresses puts into a cell. -/
def stored (vm : Vm σ) (value : Handle) : Option Value :=
  match vm.value? value with
  | some .null => none
  | v => v

/-- The moves of a write. -/
def writeMoves (vm : Vm σ) (h : Handle) (offset : UInt64) (value : Handle) : List (Move σ) :=
  match vm.write h offset value with
  | .ok _ => [.write h offset (vm.stored value)]
  | .error _ => []

theorem store_eq_ok {vm vm' : Vm σ} {h : Handle} {offset : UInt64} {v : Option Value} :
    vm.store h offset v = .ok vm' ↔ ∃ b c, vm.table.get? h = some (.block b) ∧
      b.cell? offset = some c ∧ c.protection.write = false ∧
      vm' = vm.setBlock h (b.modifyCell offset fun c => { c with value := v }) := by
  unfold store
  constructor
  · intro hstore
    split at hstore
    · cases hstore
    · next b c hcell =>
      obtain ⟨hb, hc⟩ := cell_eq_ok.mp hcell
      split at hstore
      · cases hstore
      · next hw =>
        cases hstore
        exact ⟨b, c, hb, hc, by simpa using hw, by simp [Heap.Block.modifyCell, hc]⟩
  · rintro ⟨b, c, hb, hc, hw, rfl⟩
    simp [cell_eq_ok.mpr ⟨hb, hc⟩, hw, Heap.Block.modifyCell, hc]

theorem write_eq_ok {vm vm' : Vm σ} {h value : Handle} {offset : UInt64} :
    vm.write h offset value = .ok vm' ↔
      (∃ v, vm.value? value = some v) ∧ vm.store h offset (vm.stored value) = .ok vm' := by
  unfold write stored
  split <;> simp_all

theorem storable_stored {vm : Vm σ} {value : Handle} (hv : ∃ v, vm.value? value = some v) :
    Storable vm.table (vm.stored value) := by
  obtain ⟨v, hv⟩ := hv
  unfold stored
  unfold value? at hv ⊢
  split at hv
  · next hn => simp [hn, Storable]
  · next hn =>
    simp only [hn, if_false, Bool.false_eq_true]
    cases ho : vm.object? value with
    | none => simp [ho] at hv
    | some o => cases o <;> simp_all [Object.value, Storable, object?]

theorem holdings_setBlock {vm : Vm σ} {h : Handle} {b : Heap.Block}
    (hb : vm.table.get? h = some (.block b)) (f : Heap.Block → Heap.Block) :
    (vm.setBlock h (f b)).holdings =
      { vm.holdings with table := vm.table.replay (Move.edit vm.table h f) } := by
  simp [setBlock, holdings, Move.edit, hb, Handle.Table.apply]

theorem holdings_write {vm vm' : Vm σ} {h value : Handle} {offset : UInt64}
    (hw : vm.write h offset value = .ok vm') :
    vm'.holdings = Move.apply vm.holdings (.write h offset (vm.stored value)) := by
  obtain ⟨b, c, hb, -, -, rfl⟩ := store_eq_ok.mp (write_eq_ok.mp hw).2
  exact holdings_setBlock hb fun b =>
    b.modifyCell offset fun c => { c with value := vm.stored value }

theorem moves_write (vm : Vm σ) (h : Handle) (offset : UInt64) (value : Handle) :
    Moves vm.holdings (vm.writeMoves h offset value) := by
  unfold writeMoves
  split
  · next vm' hw =>
    obtain ⟨hv, hstore⟩ := write_eq_ok.mp hw
    obtain ⟨b, c, hb, hc, hwr, -⟩ := store_eq_ok.mp hstore
    exact ⟨⟨storable_stored hv, b, c, hb, hc, hwr⟩, trivial⟩
  · trivial

theorem protect_eq_ok {vm vm' : Vm σ} {h : Handle} {offset : UInt64} {p : Heap.Protection} :
    vm.protect h offset p = .ok vm' ↔ ∃ b c, vm.table.get? h = some (.block b) ∧
      b.cell? offset = some c ∧
      vm' = vm.setBlock h (b.modifyCell offset fun c => { c with protection := p }) := by
  unfold protect
  constructor
  · intro hprotect
    split at hprotect
    · cases hprotect
    · next b c hcell =>
      obtain ⟨hb, hc⟩ := cell_eq_ok.mp hcell
      cases hprotect
      exact ⟨b, c, hb, hc, by simp [Heap.Block.modifyCell, hc]⟩
  · rintro ⟨b, c, hb, hc, rfl⟩
    simp [cell_eq_ok.mpr ⟨hb, hc⟩, Heap.Block.modifyCell, hc]

/-- The moves of protecting a cell. -/
def protectMoves (vm : Vm σ) (h : Handle) (offset : UInt64) (p : Heap.Protection) :
    List (Move σ) :=
  match vm.protect h offset p with
  | .ok _ => [.protect h offset p]
  | .error _ => []

theorem holdings_protect {vm vm' : Vm σ} {h : Handle} {offset : UInt64} {p : Heap.Protection}
    (hp : vm.protect h offset p = .ok vm') :
    vm'.holdings = Move.apply vm.holdings (.protect h offset p) := by
  obtain ⟨b, c, hb, -, rfl⟩ := protect_eq_ok.mp hp
  exact holdings_setBlock hb fun b => b.modifyCell offset fun c => { c with protection := p }

theorem moves_protect (vm : Vm σ) (h : Handle) (offset : UInt64) (p : Heap.Protection) :
    Moves vm.holdings (vm.protectMoves h offset p) := by
  unfold protectMoves
  split
  · next vm' hp =>
    obtain ⟨b, c, hb, hc, -⟩ := protect_eq_ok.mp hp
    exact ⟨⟨b, c, hb, hc⟩, trivial⟩
  · trivial

end Vm

end NativeBridge
