import NativeBridge.Proofs.Machine.Journal

/-!
# Interrupt handlers along histories

Handlers are never removed, and a new one is added behind those there are (`Steps.handlers`). All
other acts leave the handlers alone.
-/

namespace NativeBridge

variable {σ : Type}

@[simp] theorem Vm.handlers_push (vm : Vm σ) (owner : Handle) (r : Report) :
    (vm.push owner r).handlers = vm.handlers := by
  unfold push
  split <;> split <;> rfl

theorem Vm.handlers_alloc (vm : Vm σ) (site : Site) (size : UInt64) :
    (vm.alloc site size).2.handlers = vm.handlers := by
  unfold alloc
  split
  · rfl
  · exact vm.handlers_push _ _

theorem Vm.handlers_free (vm : Vm σ) (site : Site) (h : Handle) :
    (vm.free site h).handlers = vm.handlers := by
  unfold free
  split
  · exact vm.handlers_push _ _
  · rfl

theorem Vm.handlers_resize (vm : Vm σ) (site : Site) (h : Handle) (size : UInt64) :
    (vm.resize site h size).2.handlers = vm.handlers := by
  unfold resize
  split
  · split
    · rfl
    · exact vm.handlers_alloc site size
  · split
    · exact vm.handlers_free site h
    · unfold resizeBlock
      split
      · exact vm.handlers_push _ _
      · split
        · exact vm.handlers_push _ _
        · rfl

theorem ScopeOp.handlers_perform (vm : Vm σ) (id : ScopeId) (scope : Scope) (op : ScopeOp) :
    (op.perform vm id scope).2.handlers = vm.handlers := by
  cases op with
  | mint s =>
    simp only [perform]
    rw [Vm.mint_eq]
  | alloc size => exact vm.handlers_alloc _ size
  | resize block size => exact vm.handlers_resize _ block size
  | free block => exact vm.handlers_free _ block
  | read block offset =>
    simp only [perform]
    split
    · rfl
    · rfl
    · dsimp only
      rw [Vm.mint_eq]
  | write block offset value =>
    cases hw : vm.write block offset value with
    | error e => simp [perform, Vm.keepOnError, hw]
    | ok vm' =>
      obtain ⟨b, c, -, -, -, rfl⟩ := Vm.store_eq_ok.mp (Vm.write_eq_ok.mp hw).2
      simp [perform, Vm.keepOnError, hw, Vm.setBlock]
  | _ => rfl

theorem HostOp.handlers_perform (vm : Vm σ) (op : HostOp) :
    (op.perform vm).2.handlers = vm.handlers := by
  cases op with
  | defineModule name =>
    simp only [perform, Vm.defineModule]
    split
    · rfl
    · split <;> rfl
  | protect block offset p =>
    cases hp : vm.protect block offset p with
    | error e => simp [perform, Vm.keepOnError, hp]
    | ok vm' =>
      obtain ⟨b, c, -, -, rfl⟩ := Vm.protect_eq_ok.mp hp
      simp [perform, Vm.keepOnError, hp, Vm.setBlock]
  | release h =>
    simp only [perform, Vm.release]
    split <;> rfl
  | _ => rfl

theorem Vm.handlers_defineScript (vm : Vm σ) (module : Handle) (name : String) (argc : UInt64)
    (body : ScriptBody σ) : (vm.defineScript module name argc body).2.handlers = vm.handlers := by
  rcases hdef : vm.defineScript module name argc body with ⟨result, vm'⟩
  cases result with
  | ok function => rw [(defineScript_eq_ok hdef).2, addFunction_eq]
  | error e => rw [defineScript_eq_error hdef]

theorem Vm.handlers_attachLibrary (vm : Vm σ) (name : String)
    (library : FunctionTable (NativeFunction σ)) (rejected : ℕ) :
    (vm.attachLibrary name library rejected).2.handlers = vm.handlers := by
  have hattach : ∀ (vm : Vm σ) (module : Handle),
      (vm.attach name module library rejected).2.handlers = vm.handlers := by
    intro vm module
    rw [attach, addFunctions_eq]
    rfl
  unfold attachLibrary
  split
  · exact hattach _ _
  · split
    · rfl
    · split
      · rfl
      · exact hattach _ _

namespace Act

/-- The handlers that an act adds. -/
def handlers : Act σ → List (Handler σ)
  | addHandler handler => [handler]
  | _ => []

theorem handlers_perform (vm : Vm σ) (act : Act σ) :
    (act.perform vm).handlers = vm.handlers ++ act.handlers := by
  have hkeeps : ∀ {vm' : Vm σ}, vm'.handlers = vm.handlers → vm'.handlers = vm.handlers ++ [] :=
    fun h => h.trans (List.append_nil _).symm
  cases act with
  | addHandler handler => rfl
  | within id op =>
    refine hkeeps ?_
    rw [perform]
    split
    · exact op.handlers_perform vm id _
    · rfl
  | host op => exact hkeeps (op.handlers_perform vm)
  | closeScope id => exact hkeeps (by rw [perform, Vm.closeScope_eq])
  | deliver id value => exact hkeeps (by rw [perform, Vm.mint_eq])
  | report id r =>
    refine hkeeps ?_
    rw [perform]
    split
    · exact vm.handlers_push _ r
    · rfl
  | reportInvoked r => exact hkeeps (vm.handlers_push _ r)
  | defineScript module name argc body =>
    exact hkeeps (vm.handlers_defineScript module name argc body)
  | attachLibrary name library rejected =>
    exact hkeeps (vm.handlers_attachLibrary name library rejected)
  | _ => exact hkeeps rfl

end Act

/-- **Handlers.** In a history the handlers stay, and new ones are added behind them. -/
theorem Steps.handlers {vm₀ vm : Vm σ} {steps : List (Step σ)} (h : Steps vm₀ steps vm) :
    vm.handlers = vm₀.handlers ++ steps.flatMap fun s => s.act.handlers := by
  induction h with
  | refl => exact (List.append_nil _).symm
  | snoc act _ _ ih =>
    rw [act.handlers_perform, ih, List.append_assoc, List.flatMap_append, List.flatMap_singleton]

end NativeBridge
