import NativeBridge.Proofs.Machine.Journal
import NativeBridge.Proofs.Table.Map

/-!
# Masked machines

The *masked* machine is the machine with all cells emptied that are protected against reads. Apart
from a store into such a cell, every operation does to the masked machine what it does to the
machine, and it replies the same. Two machines are *alike* if they are the same when masked, that
is, if they differ at most in what cells hold that are protected against reads. Hence operations
keep machines alike and tell none from the other (`ScopeOp.perform_alike`, `HostOp.perform_alike`).
-/

namespace NativeBridge

variable {σ α : Type}

/-! ### Masks -/

namespace Heap

/-- The cell, emptied if it is protected against reads. -/
def Cell.masked (c : Cell) : Cell := if c.protection.read then { c with value := none } else c

@[simp] theorem Cell.protection_masked (c : Cell) : c.masked.protection = c.protection := by
  unfold masked
  split <;> rfl

@[simp] theorem Cell.masked_empty : Cell.empty.masked = .empty := rfl

/-- Cells are the same when masked, if they have the same protection and, unless it is against
reads, the same value. -/
theorem Cell.masked_eq_masked_iff {c d : Cell} : c.masked = d.masked ↔
    c.protection = d.protection ∧ (c.protection.read = false → c.value = d.value) := by
  obtain ⟨v, p⟩ := c
  obtain ⟨w, q⟩ := d
  cases hp : p.read <;> cases hq : q.read <;> simp [masked, hp, hq] <;> grind

theorem Cell.masked_masked (c : Cell) : c.masked.masked = c.masked :=
  masked_eq_masked_iff.mpr ⟨c.protection_masked, fun hp => by
    rw [protection_masked] at hp
    simp [masked, hp]⟩

namespace Block

/-- The block with the cells emptied that are protected against reads. -/
def masked (b : Block) : Block := ⟨b.cells.map Cell.masked⟩

@[simp] theorem size_masked (b : Block) : b.masked.size = b.size := by simp [masked, size]

@[simp] theorem cell?_masked (b : Block) (o : UInt64) :
    b.masked.cell? o = (b.cell? o).map Cell.masked := Array.getElem?_map

@[simp] theorem masked_ofSize (n : UInt64) : (ofSize n).masked = ofSize n := by
  simp [masked, ofSize]

theorem masked_resize (b : Block) (n : UInt64) : (b.resize n).masked = b.masked.resize n := by
  simp [masked, resize]

theorem masked_setCell (b : Block) (o : UInt64) (c : Cell) :
    (b.setCell o c).masked = b.masked.setCell o c.masked := by
  simp [masked, setCell]

/-- A cell that is changed to one that is the same when masked. -/
theorem masked_modifyCell {b : Block} {o : UInt64} {c : Cell} {f : Cell → Cell}
    (hc : b.cell? o = some c) (hf : (f c).masked = c.masked) :
    (b.modifyCell o f).masked = b.masked := by
  have hself : b.setCell o c = b := congrArg Block.mk (setIfInBounds_of_getElem? hc)
  rw [modifyCell, hc, masked_setCell, hf, ← masked_setCell, hself]

theorem masked_masked (b : Block) : b.masked.masked = b.masked := by
  have hcell : Cell.masked ∘ Cell.masked = Cell.masked := funext Cell.masked_masked
  simp [masked, hcell]

end Block

end Heap

namespace Object

/-- The object, masked if it is a block. -/
def masked : Object σ → Object σ
  | block b => block b.masked
  | o => o

@[simp] theorem kind_masked (o : Object σ) : o.masked.kind = o.kind := by cases o <;> rfl

@[simp] theorem isNumber_masked (o : Object σ) : o.masked.isNumber = o.isNumber := by
  cases o <;> rfl

@[simp] theorem value_masked (o : Object σ) (h : Handle) : o.masked.value h = o.value h := by
  cases o <;> rfl

theorem masked_masked (o : Object σ) : o.masked.masked = o.masked := by
  cases o with
  | block b => exact congrArg block b.masked_masked
  | _ => rfl

end Object

namespace Vm

/-- The machine with all cells emptied that are protected against reads. -/
def masked (vm : Vm σ) : Vm σ := { vm with table := vm.table.map Object.masked }

@[simp] theorem object?_masked (vm : Vm σ) (h : Handle) :
    vm.masked.object? h = (vm.object? h).map Object.masked := Handle.Table.get?_map ..

theorem masked_masked (vm : Vm σ) : vm.masked.masked = vm.masked := by
  have hobject : (Object.masked ∘ Object.masked : Object σ → Object σ) = Object.masked :=
    funext Object.masked_masked
  simp [masked, Handle.Table.map_map, hobject]

/-! ### Values -/

theorem isLive_masked (vm : Vm σ) (h : Handle) : vm.masked.isLive h = vm.isLive h :=
  Handle.Table.contains_map ..

theorem scalar_masked (vm : Vm σ) (h : Handle) (wanted : Kind) :
    vm.masked.scalar h wanted = vm.scalar h wanted := by
  unfold scalar
  rw [object?_masked]
  rcases vm.object? h with _ | o
  · rfl
  · cases o <;> rfl

theorem number_masked (vm : Vm σ) (width : Width) (h : Handle) (strict : Bool) :
    vm.masked.number width h strict = vm.number width h strict := by
  rw [number, scalar_masked, number]

theorem text_masked (vm : Vm σ) (h : Handle) : vm.masked.text h = vm.text h := by
  rw [text, scalar_masked, text]

theorem isKind_masked (vm : Vm σ) (h : Handle) (kind : Kind) :
    vm.masked.isKind h kind = vm.isKind h kind := by
  rw [isKind, object?_masked, isKind]
  cases vm.object? h <;> simp

theorem isNumber_masked (vm : Vm σ) (h : Handle) : vm.masked.isNumber h = vm.isNumber h := by
  rw [isNumber, object?_masked, isNumber]
  cases vm.object? h <;> simp

theorem value?_masked (vm : Vm σ) (h : Handle) : vm.masked.value? h = vm.value? h := by
  simp [value?, Function.comp_def]

theorem argumentValues_masked (vm : Vm σ) (args : List Argument) :
    vm.masked.argumentValues args = vm.argumentValues args := by
  have hargument : vm.masked.argumentValue = vm.argumentValue := by
    funext a
    cases a with
    | scalar s => rfl
    | handle h => rw [argumentValue, value?_masked, argumentValue]
  rw [argumentValues, hargument, argumentValues]

theorem release_masked (vm : Vm σ) (h : Handle) :
    vm.masked.release h = ((vm.release h).1, (vm.release h).2.masked) := by
  unfold release
  rw [object?_masked]
  rcases vm.object? h with _ | o
  · rfl
  · cases o with
    | scalar s => simp [Object.masked, masked, Handle.Table.remove_map]
    | _ => rfl

/-! ### Reports -/

theorem push_masked (vm : Vm σ) (owner : Handle) (r : Report) :
    vm.masked.push owner r = (vm.push owner r).masked := by
  cases hlog : vm.options.logDiagnostics <;> cases hold : vm.diagnostics.evicted? owner <;>
    simp [push, masked, record, hlog, hold]

theorem report_masked (vm : Vm σ) (site : Site) (native : Bool) (severity : Severity)
    (message : Message) :
    vm.masked.report site native severity message =
      (vm.report site native severity message).masked := push_masked ..

/-! ### Scopes -/

theorem functionSite_masked (vm : Vm σ) (h : Handle) :
    vm.masked.functionSite h = vm.functionSite h := by
  unfold functionSite
  rw [object?_masked]
  rcases vm.object? h with _ | o
  · rfl
  · cases o <;> rfl

theorem moduleSite_masked (vm : Vm σ) (h : Handle) :
    vm.masked.moduleSite h = vm.moduleSite h := by
  unfold moduleSite
  rw [object?_masked]
  rcases vm.object? h with _ | o
  · rfl
  · cases o <;> rfl

theorem addLocal_masked (vm : Vm σ) (id : ScopeId) (h : Handle) :
    vm.masked.addLocal id h = (vm.addLocal id h).masked := by
  unfold addLocal
  rw [show vm.masked.scopes = vm.scopes from rfl]
  split <;> rfl

/-- A table in which something is stored that the mask does not change. -/
theorem insert_masked (t : Handle.Table (Object σ)) {o : Object σ} (ho : o.masked = o) :
    (t.map Object.masked).insert o = ((t.insert o).1, (t.insert o).2.map Object.masked) := by
  rw [← Handle.Table.insert_map, ho]

theorem set_masked (t : Handle.Table (Object σ)) (h : Handle) {o : Object σ} (ho : o.masked = o) :
    (t.map Object.masked).set h o = (t.set h o).map Object.masked := by
  rw [← Handle.Table.set_map, ho]

theorem mint_masked (vm : Vm σ) (id : ScopeId) (v : Value) :
    vm.masked.mint id v = ((vm.mint id v).1, (vm.mint id v).2.masked) := by
  cases v with
  | scalar s =>
    simp only [mint]
    rw [← addLocal_masked]
    simp only [masked, insert_masked vm.table (o := .scalar s) rfl]
  | _ => rfl

theorem releaseAll_masked (vm : Vm σ) (hs : List Handle) :
    vm.masked.releaseAll hs = ((vm.releaseAll hs).1, (vm.releaseAll hs).2.masked) := by
  induction hs generalizing vm with
  | nil => rfl
  | cons h hs ih =>
    simp only [releaseAll, release_masked, ih]

theorem closeScope_masked (vm : Vm σ) (id : ScopeId) :
    vm.masked.closeScope id = (vm.closeScope id).masked := by
  unfold closeScope
  rw [show vm.masked.scopes = vm.scopes from rfl]
  split
  · rfl
  · next scope _ =>
    have hreleases : { vm.masked with scopes := vm.scopes.erase id }.releaseAll scope.locals =
        (({ vm with scopes := vm.scopes.erase id }.releaseAll scope.locals).1,
          ({ vm with scopes := vm.scopes.erase id }.releaseAll scope.locals).2.masked) :=
      releaseAll_masked { vm with scopes := vm.scopes.erase id } scope.locals
    dsimp only
    rw [hreleases]
    split <;> rfl

theorem closeScopes_masked (vm : Vm σ) (ids : List ScopeId) :
    vm.masked.closeScopes ids = (vm.closeScopes ids).masked := by
  unfold closeScopes
  induction ids generalizing vm with
  | nil => rfl
  | cons id ids ih => rw [List.foldl_cons, closeScope_masked, ih, List.foldl_cons]

/-! ### Blocks -/

theorem block_masked (vm : Vm σ) (h : Handle) :
    vm.masked.block h = (vm.block h).map Heap.Block.masked := by
  unfold block
  rw [object?_masked]
  rcases vm.object? h with _ | o
  · rfl
  · cases o <;> rfl

theorem cell_masked (vm : Vm σ) (h : Handle) (offset : UInt64) :
    vm.masked.cell h offset =
      (vm.cell h offset).map (Prod.map Heap.Block.masked Heap.Cell.masked) := by
  unfold cell
  rw [block_masked]
  rcases vm.block h with e | b
  · rfl
  · simp only [Except.map, Heap.Block.cell?_masked, Heap.Block.size_masked]
    cases b.cell? offset <;> rfl

theorem setBlock_masked (vm : Vm σ) (h : Handle) (b : Heap.Block) :
    vm.masked.setBlock h b.masked = (vm.setBlock h b).masked :=
  congrArg (fun t => { vm with table := t })
    (Handle.Table.set_map Object.masked vm.table h (.block b))

theorem alloc_masked (vm : Vm σ) (site : Site) (size : UInt64) :
    vm.masked.alloc site size = ((vm.alloc site size).1, (vm.alloc site size).2.masked) := by
  unfold alloc
  rw [show vm.masked.budgetAllows size = vm.budgetAllows size from rfl]
  split
  · have hinsert := insert_masked vm.table (o := .block (.ofSize size))
      (congrArg Object.block (Heap.Block.masked_ofSize size))
    simp only [masked, record] at hinsert ⊢
    rw [hinsert]
  · exact congrArg (Prod.mk none) (report_masked ..)

theorem free_masked (vm : Vm σ) (site : Site) (h : Handle) :
    vm.masked.free site h = (vm.free site h).masked := by
  unfold free
  rw [block_masked]
  rcases vm.block h with e | b
  · exact report_masked ..
  · simp [Except.map, masked, record, Handle.Table.remove_map]

theorem resizeBlock_masked (vm : Vm σ) (site : Site) (h : Handle) (size : UInt64) :
    vm.masked.resizeBlock site h size =
      ((vm.resizeBlock site h size).1, (vm.resizeBlock site h size).2.masked) := by
  unfold resizeBlock
  rw [block_masked]
  rcases vm.block h with e | b
  · exact congrArg (Prod.mk none) (report_masked ..)
  · simp only [Except.map, Heap.Block.size_masked,
      show ∀ n, vm.masked.budgetAllows n = vm.budgetAllows n from fun _ => rfl]
    split
    · exact congrArg (Prod.mk none) (report_masked ..)
    · rw [← Heap.Block.masked_resize, setBlock_masked]
      rfl

theorem resize_masked (vm : Vm σ) (site : Site) (h : Handle) (size : UInt64) :
    vm.masked.resize site h size =
      ((vm.resize site h size).1, (vm.resize site h size).2.masked) := by
  unfold resize
  split
  · split
    · rfl
    · exact vm.alloc_masked site size
  · split
    · rw [free_masked]
    · exact vm.resizeBlock_masked site h size

theorem blockSize_masked (vm : Vm σ) (h : Handle) : vm.masked.blockSize h = vm.blockSize h := by
  rw [blockSize, block_masked, blockSize]
  cases vm.block h <;> simp [Except.map]

/-- A read of a cell that is protected fails, and the value of any other is not masked. -/
theorem read_masked (vm : Vm σ) (h : Handle) (offset : UInt64) :
    vm.masked.read h offset = vm.read h offset := by
  unfold read
  rw [cell_masked]
  rcases vm.cell h offset with e | ⟨b, c⟩
  · rfl
  · simp only [Except.map, Prod.map, Heap.Cell.protection_masked]
    cases hp : c.protection.read <;> simp [Heap.Cell.masked, hp]

/-- A store into a cell that is protected against reads is masked afterwards. -/
theorem store_masked (vm : Vm σ) (h : Handle) (offset : UInt64) (value : Option Value) :
    (vm.masked.store h offset value).map masked = (vm.store h offset value).map masked := by
  unfold store
  rw [cell_masked]
  rcases vm.cell h offset with e | ⟨b, c⟩
  · rfl
  · have hcell : ({ c.masked with value := value } : Heap.Cell).masked =
        ({ c with value := value } : Heap.Cell).masked :=
      Heap.Cell.masked_eq_masked_iff.mpr ⟨c.protection_masked, fun _ => rfl⟩
    have hblock : (b.masked.setCell offset { c.masked with value := value }).masked =
        (b.setCell offset { c with value := value }).masked := by
      rw [Heap.Block.masked_setCell, Heap.Block.masked_masked, hcell, Heap.Block.masked_setCell]
    simp only [Except.map, Prod.map, Heap.Cell.protection_masked] at hblock ⊢
    by_cases hw : c.protection.write = true
    · rw [if_pos hw, if_pos hw]
    · rw [if_neg hw, if_neg hw]
      simp only
      rw [← setBlock_masked, masked_masked, hblock, setBlock_masked]

theorem write_masked (vm : Vm σ) (h : Handle) (offset : UInt64) (value : Handle) :
    (vm.masked.write h offset value).map masked = (vm.write h offset value).map masked := by
  unfold write
  rw [value?_masked]
  split
  · rfl
  · exact vm.store_masked h offset _
  · exact vm.store_masked h offset _

/-! ### Modules and functions -/

theorem module?_masked (vm : Vm σ) (h : Handle) : vm.masked.module? h = vm.module? h := by
  unfold module?
  rw [object?_masked]
  rcases vm.object? h with _ | o
  · rfl
  · cases o <;> rfl

theorem function_masked (vm : Vm σ) (h : Handle) : vm.masked.function h = vm.function h := by
  unfold function
  rw [object?_masked]
  rcases vm.object? h with _ | o
  · rfl
  · cases o <;> rfl

theorem getFunctionIn_masked (vm : Vm σ) (module : Handle) (name : String) :
    vm.masked.getFunctionIn module name = vm.getFunctionIn module name := by
  unfold getFunctionIn
  rw [object?_masked]
  rcases vm.object? module with _ | o
  · rfl
  · cases o <;> rfl

theorem getFunction_masked (vm : Vm σ) (module name : String) :
    vm.masked.getFunction module name = vm.getFunction module name := by
  unfold getFunction
  rw [show vm.masked.getModule module = vm.getModule module from rfl]
  simp only [module?_masked]

theorem createModule_masked (vm : Vm σ) (name : String) :
    vm.masked.createModule name = ((vm.createModule name).1, (vm.createModule name).2.masked) := by
  simp only [createModule, masked, insert_masked _ (o := .module _) rfl,
    insert_masked _ (o := .function _) rfl, set_masked _ _ (o := .module _) rfl]

theorem addFunction_masked (vm : Vm σ) (module : Handle) (name : String) (argc : UInt64)
    (body : Body σ) :
    vm.masked.addFunction module name argc body =
      ((vm.addFunction module name argc body).1,
        (vm.addFunction module name argc body).2.masked) := by
  have hinsert := insert_masked vm.table (o := .function ⟨name, module, argc, body⟩) rfl
  have hmodule : ∀ t : Handle.Table (Object σ),
      { vm.masked with table := t.map Object.masked }.module? module =
        { vm with table := t }.module? module :=
    fun t => module?_masked { vm with table := t } module
  unfold addFunction
  rw [show vm.masked.table = vm.table.map Object.masked from rfl, hinsert]
  dsimp only
  rw [hmodule]
  split
  · simp only [set_masked _ _ (o := .module _) rfl, masked]
  · rfl

theorem addFunctions_masked (vm : Vm σ) (module : Handle)
    (fs : List (String × NativeFunction σ)) :
    vm.masked.addFunctions module fs = (vm.addFunctions module fs).masked := by
  unfold addFunctions
  induction fs generalizing vm with
  | nil => rfl
  | cons f fs ih => rw [List.foldl_cons, addFunction_masked, ih, List.foldl_cons]

theorem defineModule_masked (vm : Vm σ) (name : String) :
    vm.masked.defineModule name =
      ((vm.defineModule name).1, (vm.defineModule name).2.masked) := by
  unfold defineModule
  rw [show vm.masked.modules = vm.modules from rfl, createModule_masked]
  split
  · rfl
  · split <;> rfl

theorem defineScript_masked (vm : Vm σ) (module : Handle) (name : String) (argc : UInt64)
    (body : ScriptBody σ) :
    vm.masked.defineScript module name argc body =
      ((vm.defineScript module name argc body).1,
        (vm.defineScript module name argc body).2.masked) := by
  unfold defineScript
  rw [module?_masked, addFunction_masked]
  split
  · rfl
  · split
    · rfl
    · split <;> rfl

theorem attachLibrary_masked (vm : Vm σ) (name : String)
    (library : FunctionTable (NativeFunction σ)) (rejected : ℕ) :
    vm.masked.attachLibrary name library rejected =
      ((vm.attachLibrary name library rejected).1,
        (vm.attachLibrary name library rejected).2.masked) := by
  have hattach : ∀ (vm : Vm σ) (module : Handle),
      vm.masked.attach name module library rejected =
        ((vm.attach name module library rejected).1,
          (vm.attach name module library rejected).2.masked) := by
    intro vm module
    rw [attach, addFunctions_masked]
    rfl
  unfold attachLibrary
  rw [show vm.masked.getModule name = vm.getModule name from rfl, createModule_masked]
  split
  · exact hattach _ _
  · rw [module?_masked]
    split
    · rfl
    · split
      · rfl
      · exact hattach _ _

/-! ### Machines that are alike -/

/-- The machines differ at most in what cells hold that are protected against reads. -/
def Alike (vm₁ vm₂ : Vm σ) : Prop := vm₁.masked = vm₂.masked

namespace Alike

variable {vm₁ vm₂ : Vm σ}

/-- What the mask does not change, machines that are alike have in common. -/
theorem congr (h : vm₁.Alike vm₂) (f : Vm σ → α) (hf : ∀ vm, f vm.masked = f vm) :
    f vm₁ = f vm₂ :=
  calc f vm₁ = f vm₁.masked := (hf vm₁).symm
    _ = f vm₂.masked := congrArg f h
    _ = f vm₂ := hf vm₂

/-- What is done to masked machines in the same way keeps machines alike. -/
theorem map (h : vm₁.Alike vm₂) (f : Vm σ → Vm σ) (hf : ∀ vm, f vm.masked = (f vm).masked) :
    (f vm₁).Alike (f vm₂) :=
  calc (f vm₁).masked = f vm₁.masked := (hf vm₁).symm
    _ = f vm₂.masked := congrArg f h
    _ = (f vm₂).masked := hf vm₂

theorem map_reply (h : vm₁.Alike vm₂) (f : Vm σ → α × Vm σ)
    (hf : ∀ vm, f vm.masked = ((f vm).1, (f vm).2.masked)) :
    (f vm₁).1 = (f vm₂).1 ∧ (f vm₁).2.Alike (f vm₂).2 :=
  ⟨h.congr (fun vm => (f vm).1) fun vm => by rw [hf],
    h.congr (fun vm => (f vm).2.masked) fun vm => by rw [hf, masked_masked]⟩

theorem scopes (h : vm₁.Alike vm₂) : vm₁.scopes = vm₂.scopes := h.congr Vm.scopes fun _ => rfl

/-- A fallible operation that is done to masked machines in the same way up to the mask. -/
theorem keepOnError (h : vm₁.Alike vm₂) (f : Vm σ → Except BridgeError (Vm σ))
    (hf : ∀ vm, (f vm.masked).map masked = (f vm).map masked) :
    (vm₁.keepOnError (f vm₁)).1 = (vm₂.keepOnError (f vm₂)).1 ∧
      (vm₁.keepOnError (f vm₁)).2.Alike (vm₂.keepOnError (f vm₂)).2 := by
  have heq : (f vm₁).map masked = (f vm₂).map masked := h.congr (fun vm => (f vm).map masked) hf
  generalize f vm₁ = o₁, f vm₂ = o₂ at heq ⊢
  rcases o₁ with e₁ | vm₁' <;> rcases o₂ with e₂ | vm₂'
  · cases heq
    exact ⟨rfl, h⟩
  · cases heq
  · cases heq
  · exact ⟨rfl, Except.ok.inj heq⟩

/-- A write to a cell that is protected against reads. -/
theorem of_write {vm vm' : Vm σ} {h k : Handle} {offset : UInt64} {b : Heap.Block}
    {c : Heap.Cell} (hc : vm.cell h offset = .ok (b, c)) (hp : c.protection.read = true)
    (hw : vm.write h offset k = .ok vm') : vm.Alike vm' := by
  obtain ⟨_, _, hb, hcell, -, rfl⟩ := store_eq_ok.mp (write_eq_ok.mp hw).2
  rw [cell_eq_ok.mpr ⟨hb, hcell⟩] at hc
  cases hc
  have hmasked : ({ c with value := vm.stored k } : Heap.Cell).masked = c.masked :=
    Heap.Cell.masked_eq_masked_iff.mpr ⟨rfl, fun hunprotected => by simp [hp] at hunprotected⟩
  have hblock : (Object.block (b.modifyCell offset fun c => { c with value := vm.stored k }) :
      Object σ).masked = (Object.block b).masked :=
    congrArg Object.block (Heap.Block.masked_modifyCell
      (f := fun c => { c with value := vm.stored k }) hcell hmasked)
  exact congrArg (fun t => { vm with table := t })
    (Handle.Table.map_set_of_eq Object.masked hb hblock).symm

end Alike

end Vm

/-- **Operations through a scope** tell no machines that are alike from each other. -/
theorem ScopeOp.perform_alike {vm₁ vm₂ : Vm σ} (h : vm₁.Alike vm₂) (id : ScopeId) (scope : Scope)
    (op : ScopeOp) :
    (op.perform vm₁ id scope).1 = (op.perform vm₂ id scope).1 ∧
      (op.perform vm₁ id scope).2.Alike (op.perform vm₂ id scope).2 := by
  have hfunction := fun module name =>
    h.congr (Vm.getFunctionIn · module name) (Vm.getFunctionIn_masked · module name)
  have hdiagnostics := h.congr Vm.diagnostics fun _ => rfl
  cases op with
  | getModule name => exact ⟨h.congr (Vm.getModule · name) fun _ => rfl, h⟩
  | getFunction name =>
    exact ⟨congrArg (fun r => (Except.toOption r).join) (hfunction scope.module name), h⟩
  | getFunctionIn module name => exact ⟨hfunction module name, h⟩
  | latestReport => exact ⟨congrArg (Diagnostics.latest? · scope.module) hdiagnostics, h⟩
  | takeReport =>
    exact ⟨congrArg (Diagnostics.latest? · scope.module) hdiagnostics,
      h.map (fun vm => { vm with diagnostics := vm.diagnostics.pop scope.module }) fun _ => rfl⟩
  | takeReports =>
    exact ⟨congrArg (Diagnostics.queue · scope.module) hdiagnostics,
      h.map (fun vm => { vm with diagnostics := vm.diagnostics.clear scope.module }) fun _ => rfl⟩
  | getNumber width k strict =>
    exact ⟨h.congr (Vm.number · width k strict) (Vm.number_masked · width k strict), h⟩
  | getText k => exact ⟨h.congr (Vm.text · k) (Vm.text_masked · k), h⟩
  | mint s => exact h.map_reply (Vm.mint · id (.scalar s)) (Vm.mint_masked · id (.scalar s))
  | isKind k kind => exact ⟨h.congr (Vm.isKind · k kind) (Vm.isKind_masked · k kind), h⟩
  | isNumber k => exact ⟨h.congr (Vm.isNumber · k) (Vm.isNumber_masked · k), h⟩
  | alloc size =>
    exact h.map_reply (Vm.alloc · scope.site size) (Vm.alloc_masked · scope.site size)
  | resize block size =>
    exact h.map_reply (Vm.resize · scope.site block size) (Vm.resize_masked · scope.site block size)
  | free block =>
    exact ⟨rfl, h.map (Vm.free · scope.site block) (Vm.free_masked · scope.site block)⟩
  | blockSize block => exact ⟨h.congr (Vm.blockSize · block) (Vm.blockSize_masked · block), h⟩
  | read block offset =>
    have hread := h.congr (Vm.read · block offset) (Vm.read_masked · block offset)
    simp only [perform, hread]
    split
    · exact ⟨rfl, h⟩
    · exact ⟨rfl, h⟩
    · next v _ =>
      obtain ⟨hreply, hmint⟩ := h.map_reply (Vm.mint · id v) (Vm.mint_masked · id v)
      exact ⟨congrArg Except.ok hreply, hmint⟩
  | write block offset value =>
    exact h.keepOnError (Vm.write · block offset value) (Vm.write_masked · block offset value)
  | _ => exact ⟨rfl, h⟩

/-- **Operations of the host**, apart from those that protect cells, tell no machines that are alike
from each other. -/
theorem HostOp.perform_alike {vm₁ vm₂ : Vm σ} (h : vm₁.Alike vm₂) {op : HostOp}
    (hop : ∀ b i p, op ≠ .protect b i p) :
    (op.perform vm₁).1 = (op.perform vm₂).1 ∧ (op.perform vm₁).2.Alike (op.perform vm₂).2 := by
  cases op with
  | defineModule name => exact h.map_reply (Vm.defineModule · name) (Vm.defineModule_masked · name)
  | getFunction module name =>
    exact ⟨h.congr (Vm.getFunction · module name) (Vm.getFunction_masked · module name), h⟩
  | protect b i p => exact absurd rfl (hop b i p)
  | value k => exact ⟨h.congr (Vm.value? · k) (Vm.value?_masked · k), h⟩
  | release k => exact h.map_reply (Vm.release · k) (Vm.release_masked · k)
  | isLive k => exact ⟨h.congr (Vm.isLive · k) (Vm.isLive_masked · k), h⟩
  | _ => exact ⟨h.congr (fun vm => (HostOp.perform vm _).1) fun _ => rfl, h⟩

end NativeBridge
