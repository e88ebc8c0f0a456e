import NativeBridge.Proofs.Machine.Blind

/-!
# Machines behind other events

The machine *behind* some events is the machine whose journal has these in front. Apart from the
request for events, every operation does to it what it does to the machine, and replies the same.
-/

namespace NativeBridge

variable {σ α : Type}

namespace Vm

/-- The machine with events in front of its journal. -/
def behind (pre : Array Event) (vm : Vm σ) : Vm σ := { vm with journal := pre ++ vm.journal }

variable (pre : Array Event) (vm : Vm σ)

theorem record_behind (e : Event) : (vm.behind pre).record e = (vm.record e).behind pre := by
  simp [record, behind]

theorem push_behind (owner : Handle) (r : Report) :
    (vm.behind pre).push owner r = (vm.push owner r).behind pre := by
  cases hlog : vm.options.logDiagnostics <;> cases hold : vm.diagnostics.evicted? owner <;>
    simp [push, behind, record, hlog, hold]

theorem report_behind (site : Site) (native : Bool) (severity : Severity) (message : Message) :
    (vm.behind pre).report site native severity message =
      (vm.report site native severity message).behind pre := push_behind ..

/-! ### Values and scopes -/

theorem argumentValues_behind (args : List Argument) :
    (vm.behind pre).argumentValues args = vm.argumentValues args := by
  have hargument : (vm.behind pre).argumentValue = vm.argumentValue := by
    funext a
    cases a <;> rfl
  rw [argumentValues, hargument, argumentValues]

theorem release_behind (h : Handle) :
    (vm.behind pre).release h = ((vm.release h).1, (vm.release h).2.behind pre) := by
  unfold release
  rw [show (vm.behind pre).object? h = vm.object? h from rfl]
  split <;> rfl

theorem releaseAll_behind (hs : List Handle) :
    (vm.behind pre).releaseAll hs = ((vm.releaseAll hs).1, (vm.releaseAll hs).2.behind pre) := by
  induction hs generalizing vm with
  | nil => rfl
  | cons h hs ih => simp only [releaseAll, release_behind, ih]

theorem mint_behind (id : ScopeId) (v : Value) :
    (vm.behind pre).mint id v = ((vm.mint id v).1, (vm.mint id v).2.behind pre) := by
  cases v with
  | scalar s =>
    simp only [mint, addLocal, behind]
    split <;> rfl
  | _ => rfl

theorem closeScope_behind (id : ScopeId) :
    (vm.behind pre).closeScope id = (vm.closeScope id).behind pre := by
  unfold closeScope
  rw [show (vm.behind pre).scopes = vm.scopes from rfl]
  split
  · rfl
  · next scope _ =>
    have hreleases := releaseAll_behind pre { vm with scopes := vm.scopes.erase id } scope.locals
    simp only [behind] at hreleases ⊢
    rw [hreleases]
    split
    · rfl
    · exact record_behind pre _ _

theorem closeScopes_behind (ids : List ScopeId) :
    (vm.behind pre).closeScopes ids = (vm.closeScopes ids).behind pre := by
  unfold closeScopes
  induction ids generalizing vm with
  | nil => rfl
  | cons id ids ih => rw [List.foldl_cons, closeScope_behind, ih, List.foldl_cons]

/-! ### Blocks -/

theorem alloc_behind (site : Site) (size : UInt64) :
    (vm.behind pre).alloc site size =
      ((vm.alloc site size).1, (vm.alloc site size).2.behind pre) := by
  unfold alloc
  rw [show (vm.behind pre).budgetAllows size = vm.budgetAllows size from rfl]
  split
  · simp [record, behind]
  · exact congrArg (Prod.mk none) (report_behind ..)

theorem free_behind (site : Site) (h : Handle) :
    (vm.behind pre).free site h = (vm.free site h).behind pre := by
  unfold free
  rw [show (vm.behind pre).block h = vm.block h from rfl]
  split
  · exact report_behind ..
  · simp [record, behind]

theorem resizeBlock_behind (site : Site) (h : Handle) (size : UInt64) :
    (vm.behind pre).resizeBlock site h size =
      ((vm.resizeBlock site h size).1, (vm.resizeBlock site h size).2.behind pre) := by
  unfold resizeBlock
  rw [show (vm.behind pre).block h = vm.block h from rfl]
  split
  · exact congrArg (Prod.mk none) (report_behind ..)
  · rw [show ∀ n, (vm.behind pre).budgetAllows n = vm.budgetAllows n from fun _ => rfl]
    split
    · exact congrArg (Prod.mk none) (report_behind ..)
    · simp [record, behind, setBlock]

theorem resize_behind (site : Site) (h : Handle) (size : UInt64) :
    (vm.behind pre).resize site h size =
      ((vm.resize site h size).1, (vm.resize site h size).2.behind pre) := by
  unfold resize
  split
  · split
    · rfl
    · exact alloc_behind ..
  · split
    · exact congrArg (Prod.mk none) (free_behind ..)
    · exact resizeBlock_behind ..

theorem store_behind (h : Handle) (offset : UInt64) (value : Option Value) :
    (vm.behind pre).store h offset value = (vm.store h offset value).map (behind pre) := by
  unfold store
  rw [show (vm.behind pre).cell h offset = vm.cell h offset from rfl]
  split
  · rfl
  · split <;> rfl

theorem write_behind (h : Handle) (offset : UInt64) (value : Handle) :
    (vm.behind pre).write h offset value = (vm.write h offset value).map (behind pre) := by
  unfold write
  rw [show (vm.behind pre).value? value = vm.value? value from rfl]
  split
  · rfl
  · exact store_behind ..
  · exact store_behind ..

theorem protect_behind (h : Handle) (offset : UInt64) (p : Heap.Protection) :
    (vm.behind pre).protect h offset p = (vm.protect h offset p).map (behind pre) := by
  unfold protect
  rw [show (vm.behind pre).cell h offset = vm.cell h offset from rfl]
  split <;> rfl

theorem keepOnError_behind (o : Except BridgeError (Vm σ)) :
    (vm.behind pre).keepOnError (o.map (behind pre)) =
      ((vm.keepOnError o).1, (vm.keepOnError o).2.behind pre) := by
  cases o <;> rfl

/-! ### Modules and functions -/

theorem addFunction_behind (module : Handle) (name : String) (argc : UInt64) (body : Body σ) :
    (vm.behind pre).addFunction module name argc body =
      ((vm.addFunction module name argc body).1,
        (vm.addFunction module name argc body).2.behind pre) := by
  have hmodule : ∀ t, { vm.behind pre with table := t }.module? module =
      { vm with table := t }.module? module := fun _ => rfl
  unfold addFunction
  dsimp only
  rw [show (vm.behind pre).table = vm.table from rfl, hmodule]
  split <;> rfl

theorem addFunctions_behind (module : Handle) (fs : List (String × NativeFunction σ)) :
    (vm.behind pre).addFunctions module fs = (vm.addFunctions module fs).behind pre := by
  unfold addFunctions
  induction fs generalizing vm with
  | nil => rfl
  | cons f fs ih => rw [List.foldl_cons, addFunction_behind, ih, List.foldl_cons]

theorem createModule_behind (name : String) :
    (vm.behind pre).createModule name =
      ((vm.createModule name).1, (vm.createModule name).2.behind pre) := rfl

theorem defineModule_behind (name : String) :
    (vm.behind pre).defineModule name =
      ((vm.defineModule name).1, (vm.defineModule name).2.behind pre) := by
  unfold defineModule
  rw [show (vm.behind pre).modules = vm.modules from rfl, createModule_behind]
  split
  · rfl
  · split
    · rfl
    · dsimp only
      rw [record_behind]

theorem defineScript_behind (module : Handle) (name : String) (argc : UInt64)
    (body : ScriptBody σ) :
    (vm.behind pre).defineScript module name argc body =
      ((vm.defineScript module name argc body).1,
        (vm.defineScript module name argc body).2.behind pre) := by
  unfold defineScript
  rw [show (vm.behind pre).module? module = vm.module? module from rfl, addFunction_behind]
  split
  · rfl
  · split
    · rfl
    · split <;> rfl

theorem attach_behind (name : String) (module : Handle)
    (library : FunctionTable (NativeFunction σ)) (rejected : ℕ) :
    (vm.behind pre).attach name module library rejected =
      ((vm.attach name module library rejected).1,
        (vm.attach name module library rejected).2.behind pre) := by
  rw [attach, addFunctions_behind, record_behind, attach]

theorem attachLibrary_behind (name : String) (library : FunctionTable (NativeFunction σ))
    (rejected : ℕ) :
    (vm.behind pre).attachLibrary name library rejected =
      ((vm.attachLibrary name library rejected).1,
        (vm.attachLibrary name library rejected).2.behind pre) := by
  unfold attachLibrary
  rw [show (vm.behind pre).getModule name = vm.getModule name from rfl, createModule_behind]
  split
  · exact attach_behind pre _ ..
  · rw [show ∀ h, (vm.behind pre).module? h = vm.module? h from fun _ => rfl]
    split
    · rfl
    · split
      · rfl
      · exact attach_behind pre _ ..

end Vm

/-- **Operations through a scope** do not depend on what the journal has in front. -/
theorem ScopeOp.perform_behind (pre : Array Event) (vm : Vm σ) (id : ScopeId) (scope : Scope)
    (op : ScopeOp) :
    op.perform (vm.behind pre) id scope =
      ((op.perform vm id scope).1, (op.perform vm id scope).2.behind pre) := by
  cases op with
  | mint s => exact vm.mint_behind pre id (.scalar s)
  | alloc size => exact vm.alloc_behind pre scope.site size
  | resize block size => exact vm.resize_behind pre scope.site block size
  | free block => exact congrArg (Prod.mk ()) (vm.free_behind pre scope.site block)
  | read block offset =>
    simp only [perform, show (vm.behind pre).read block offset = vm.read block offset from rfl]
    split
    · rfl
    · rfl
    · next v _ => rw [vm.mint_behind pre id v]
  | write block offset value =>
    simp only [perform, vm.write_behind pre block offset value]
    exact vm.keepOnError_behind pre _
  | _ => rfl

/-- **Operations of the host**, apart from the request for events, do not depend on what the journal
has in front. -/
theorem HostOp.perform_behind (pre : Array Event) (vm : Vm σ) {op : HostOp}
    (hop : ∀ place, op ≠ .eventsFrom place) :
    op.perform (vm.behind pre) = ((op.perform vm).1, (op.perform vm).2.behind pre) := by
  cases op with
  | defineModule name => exact vm.defineModule_behind pre name
  | protect block offset p =>
    simp only [perform, vm.protect_behind pre block offset p]
    exact vm.keepOnError_behind pre _
  | release h => exact vm.release_behind pre h
  | eventsFrom place => exact absurd rfl (hop place)
  | _ => rfl

end NativeBridge
