import NativeBridge.Proofs.Outcome

/-!
# Dead handles

A handle that is neither null nor addresses anything is *dead*: it is stale, or nobody ever issued
it. Using one never silently succeeds (`dead_handle`). What needs the object fails at once
(`Vm.Refuses`), what asks for it says that there is none (`Vm.Denies`), and what would end or change
its life leaves one report (`Vm.Complains`); beyond that report the machine stays as it is, and no
code is entered. A native body that returns a handle that is dead by then has faulted.
-/

namespace NativeBridge

variable {σ : Type} {vm : Vm σ} {h : Handle}

namespace Vm

/-- The handle is not null, and it addresses nothing. -/
structure Dead (vm : Vm σ) (h : Handle) : Prop where
  nonNull : h.isNull = false
  nothing : vm.object? h = none

/-! ### Access -/

namespace Dead

variable (hh : vm.Dead h)

include hh

theorem isLive_eq : vm.isLive h = false := by
  rw [isLive_eq_isSome, hh.nothing]
  rfl

theorem isKind_eq (kind : Kind) : vm.isKind h kind = false := by simp [isKind, hh.nothing]

theorem isNumber_eq : vm.isNumber h = false := by simp [isNumber, hh.nothing]

theorem value?_eq : vm.value? h = none := by simp [value?, hh.nonNull, hh.nothing]

theorem release_eq : vm.release h = (false, vm) := by simp [release, hh.nothing]

theorem scalar_eq (wanted : Kind) :
    vm.scalar h wanted = .error (.badHandle (.addressesNothing h wanted)) := by
  simp [scalar, hh.nothing]

theorem number_eq (width : Width) (strict : Bool) :
    vm.number width h strict = .error (.badHandle (.addressesNothing h (.scalar width.type))) := by
  simp [number, hh.scalar_eq]

theorem text_eq : vm.text h = .error (.badHandle (.addressesNothing h (.scalar .string))) := by
  simp [text, hh.scalar_eq]

theorem block_eq : vm.block h = .error (.badHandle (.addressesNothing h .block)) := by
  simp [block, hh.nothing]

theorem blockSize_eq : vm.blockSize h = .error (.badHandle (.addressesNothing h .block)) := by
  rw [blockSize, hh.block_eq]
  rfl

theorem cell_eq (offset : UInt64) :
    vm.cell h offset = .error (.badHandle (.addressesNothing h .block)) := by
  simp [cell, hh.block_eq]

theorem read_eq (offset : UInt64) :
    vm.read h offset = .error (.badHandle (.addressesNothing h .block)) := by
  simp [read, hh.cell_eq]

theorem protect_eq (offset : UInt64) (protection : Heap.Protection) :
    vm.protect h offset protection = .error (.badHandle (.addressesNothing h .block)) := by
  simp [protect, hh.cell_eq]

/-- What is to be stored is looked at before the block. -/
theorem write_value_eq (block : Handle) (offset : UInt64) :
    vm.write block offset h = .error (.badHandle (.staleStore h)) := by
  simp [write, hh.value?_eq]

theorem write_eq (offset : UInt64) (value : Handle) :
    ∃ fault, vm.write h offset value = .error (.badHandle fault) := by
  have hstore : ∀ v, vm.store h offset v = .error (.badHandle (.addressesNothing h .block)) :=
    fun v => by simp [store, hh.cell_eq]
  rw [write]
  split
  · exact ⟨_, rfl⟩
  · exact ⟨_, hstore _⟩
  · exact ⟨_, hstore _⟩

theorem module?_eq : vm.module? h = none := by simp [module?, hh.nothing]

theorem moduleSite_eq : vm.moduleSite h = .error (.badHandle (.isNot h .module)) := by
  simp [moduleSite, hh.nothing]

theorem getFunctionIn_eq (name : String) :
    vm.getFunctionIn h name = .error (.badHandle (.addressesNothing h .module)) := by
  simp [getFunctionIn, hh.nothing]

theorem function_eq : vm.function h = .error (.badHandle (.addressesNothing h .function)) := by
  simp [function, hh.nothing]

theorem functionSite_eq : vm.functionSite h = .error (.badHandle (.isNot h .function)) := by
  simp [functionSite, hh.nothing]

end Dead

/-- Exactly the dead handles have no value. -/
theorem value?_eq_none_iff : vm.value? h = none ↔ vm.Dead h := by
  refine ⟨fun hvalue => ?_, Dead.value?_eq⟩
  unfold value? at hvalue
  split at hvalue
  · cases hvalue
  · next hnull => exact ⟨Bool.eq_false_iff.mpr hnull, Option.map_eq_none_iff.mp hvalue⟩

/-- Only a dead handle is no argument. -/
theorem argumentValue_eq_error {a : Argument} {e : BridgeError}
    (he : vm.argumentValue a = .error e) :
    ∃ k, a = .handle k ∧ vm.Dead k ∧ e = .badHandle (.staleArgument k) := by
  cases a with
  | scalar s => cases he
  | handle k =>
    cases hvalue : vm.value? k with
    | some v => simp [argumentValue, hvalue] at he
    | none =>
      rw [argumentValue, hvalue] at he
      cases he
      exact ⟨k, rfl, value?_eq_none_iff.mp hvalue, rfl⟩

/-- Arguments of which one is a dead handle have no values, and a dead handle is what is at
fault. -/
theorem Dead.argumentValues_eq (hh : vm.Dead h) {args : List Argument}
    (hargs : Argument.handle h ∈ args) :
    ∃ k, .handle k ∈ args ∧ vm.Dead k ∧
      vm.argumentValues args = .error (.badHandle (.staleArgument k)) := by
  rw [argumentValues]
  induction args with
  | nil => cases hargs
  | cons a args ih =>
    rw [List.mapM_cons]
    cases ha : vm.argumentValue a with
    | error e =>
      obtain ⟨k, rfl, hk, rfl⟩ := argumentValue_eq_error ha
      exact ⟨k, List.mem_cons_self, hk, rfl⟩
    | ok v =>
      -- the first argument has a value, so the dead handle comes later
      have hlater : Argument.handle h ∈ args := by
        refine (List.mem_cons.mp hargs).resolve_left fun e => ?_
        rw [← e, argumentValue, hh.value?_eq] at ha
        cases ha
      obtain ⟨k, hmem, hk, hargs'⟩ := ih hlater
      exact ⟨k, List.mem_cons_of_mem _ hmem, hk, by rw [hargs']; rfl⟩

/-- A handle that is no function is what is at fault. -/
theorem function_eq_error {f : Handle} {e : BridgeError} (he : vm.function f = .error e) :
    ∃ fault, e = .badHandle fault := by
  unfold function at he
  split at he <;> cases he <;> exact ⟨_, rfl⟩

/-! ### Operations -/

/-- What needs the object that a handle addresses fails at once: the machine stays as it is, and
nothing is entered. -/
structure Refuses (vm : Vm σ) (h : Handle) : Prop where
  getNumber : ∀ id scope width strict,
    (ScopeOp.getNumber width h strict).perform vm id scope =
      (.error (.badHandle (.addressesNothing h (.scalar width.type))), vm)
  getText : ∀ id scope,
    (ScopeOp.getText h).perform vm id scope =
      (.error (.badHandle (.addressesNothing h (.scalar .string))), vm)
  blockSize : ∀ id scope,
    (ScopeOp.blockSize h).perform vm id scope =
      (.error (.badHandle (.addressesNothing h .block)), vm)
  read : ∀ id scope offset,
    (ScopeOp.read h offset).perform vm id scope =
      (.error (.badHandle (.addressesNothing h .block)), vm)
  /-- Whatever is to be stored. -/
  write : ∀ id scope offset value, ∃ fault,
    (ScopeOp.write h offset value).perform vm id scope = (.error (.badHandle fault), vm)
  /-- Wherever the handle is to be stored. -/
  store : ∀ id scope block offset,
    (ScopeOp.write block offset h).perform vm id scope = (.error (.badHandle (.staleStore h)), vm)
  protect : ∀ offset protection,
    (HostOp.protect h offset protection).perform vm =
      (.error (.badHandle (.addressesNothing h .block)), vm)
  getFunctionIn : ∀ id scope name,
    (ScopeOp.getFunctionIn h name).perform vm id scope =
      (.error (.badHandle (.addressesNothing h .module)), vm)
  defineScript : ∀ name argc body, validName name = true →
    vm.defineScript h name argc body = (.error (.bridge (.badHandle (.isNot h .module))), vm)
  openFunction : ∀ frame,
    openAt frame vm (vm.functionSite h) = (.error (.badHandle (.isNot h .function)), frame, vm)
  openModule : ∀ frame,
    openAt frame vm (vm.moduleSite h) = (.error (.badHandle (.isNot h .module)), frame, vm)
  call : ∀ (enter : Enter σ) id scope shape args,
    callFunction enter id scope h shape args vm =
      .finished (.error (.badHandle (.addressesNothing h .function))) vm
  /-- Whatever is to be called with the handle among the arguments. -/
  argument : ∀ (enter : Enter σ) id scope function shape args, .handle h ∈ args → ∃ fault,
    callFunction enter id scope function shape args vm = .finished (.error (.badHandle fault)) vm
  invoke : ∀ (enter : Enter σ) args,
    invokeFunction enter h args vm =
      .finished (.error (.badHandle (.addressesNothing h .function))) vm

/-- What asks for the object that a handle addresses learns that there is none. -/
structure Denies (vm : Vm σ) (h : Handle) : Prop where
  isKind : ∀ id scope kind, (ScopeOp.isKind h kind).perform vm id scope = (false, vm)
  isNumber : ∀ id scope, (ScopeOp.isNumber h).perform vm id scope = (false, vm)
  isLive : (HostOp.isLive h).perform vm = (false, vm)
  release : (HostOp.release h).perform vm = (false, vm)
  value : (HostOp.value h).perform vm = (none, vm)

/-- The machine `vm'` is `vm` with one more report in the queue of `owner`. Nothing is entered, and
nothing but the log tells of the report too. -/
structure Reported (vm : Vm σ) (owner : Handle) (r : Report) (vm' : Vm σ) : Prop where
  rest : vm' = { vm with diagnostics := vm.diagnostics.push owner r, journal := vm'.journal }
  entries : vm'.entries = vm.entries
  /-- The report is the latest one of its owner. -/
  latest : vm'.diagnostics.latest? owner = some r
  /-- Before it come the reports that there were, less the oldest one of a full queue. -/
  earlier : (vm'.diagnostics.queue owner).dropLast =
    if (vm.diagnostics.queue owner).length = vm.diagnostics.capacity
    then (vm.diagnostics.queue owner).tail else vm.diagnostics.queue owner
  /-- The queues of others are as they were. -/
  others : ∀ other, other ≠ owner →
    vm'.diagnostics.queue other = vm.diagnostics.queue other

theorem reported_push (vm : Vm σ) (owner : Handle) (r : Report) :
    vm.Reported owner r (vm.push owner r) where
  rest := by
    cases hlog : vm.options.logDiagnostics <;> cases hold : vm.diagnostics.evicted? owner <;>
      simp [push, hlog, hold, record]
  entries := vm.entries_push owner r
  latest := vm.diagnostics.latest?_push owner r
  earlier := by rw [diagnostics_push, Diagnostics.queue_push_self, List.dropLast_concat]
  others _ hne := vm.diagnostics.queue_push_of_ne hne r

/-- What would free or resize the block that a handle addresses gives no handle and leaves one
report of native code with the module of the scope. -/
structure Complains (vm : Vm σ) (h : Handle) : Prop where
  free : ∀ id scope,
    vm.Reported scope.module
      ⟨scope.module, scope.function, true, vm.options.defaultSeverity, none,
        .badFree (.badHandle (.addressesNothing h .block))⟩
      ((ScopeOp.free h).perform vm id scope).2
  resize : ∀ id scope size,
    ((ScopeOp.resize h size).perform vm id scope).1 = none ∧
    vm.Reported scope.module
      ⟨scope.module, scope.function, true, vm.options.defaultSeverity, none,
        if size = 0 then .badFree (.badHandle (.addressesNothing h .block))
        else .badResize (.badHandle (.addressesNothing h .block))⟩
      ((ScopeOp.resize h size).perform vm id scope).2

/-- A native body that ends with a handle and leaves the machine `vm` has faulted. Its call yields
the default, its invocation yields nothing, and either leaves a report of the fault: with the module
of the caller, or with the module of the function if the host invoked it. -/
structure FaultsReturn (vm : Vm σ) (h : Handle) : Prop where
  call : ∀ (start : Vm σ) fuel id scope function callee shape args values,
    start.object? function = some (.function callee) → start.argumentValues args = .ok values →
    args.length = callee.argc.toNat →
    BodyRuns fuel function callee values (start.record (.dispatched callee.name shape args.length))
      (.native (.returned h)) vm →
    ∃ vm', callFunction (run fuel) id scope function shape args start =
        .finished (.ok (.default shape)) vm' ∧
      vm'.entries = vm.entries ∧
      vm'.diagnostics = vm.diagnostics.push scope.module
        ⟨callee.module, function, true, .critical,
          some ⟨vm.faultsOccurred, .call (.staleReturn callee.name)⟩,
          .nativeFault (.staleReturn callee.name)⟩
  invoke : ∀ (start : Vm σ) fuel function callee values,
    start.object? function = some (.function callee) → values.length = callee.argc.toNat →
    BodyRuns fuel function callee values start (.native (.returned h)) vm →
    ∃ vm', invokeFunction (run fuel) function values start = .finished (.ok none) vm' ∧
      vm'.entries = vm.entries ∧
      vm'.diagnostics = vm.diagnostics.push callee.module
        ⟨callee.module, function, true, .critical,
          some ⟨vm.faultsOccurred, .call (.staleReturn callee.name)⟩,
          .nativeFault (.staleReturn callee.name)⟩

namespace Dead

variable (hh : vm.Dead h)

include hh

theorem refuses : vm.Refuses h where
  getNumber _ _ width strict := congrArg (·, vm) (hh.number_eq width strict)
  getText _ _ := congrArg (·, vm) hh.text_eq
  blockSize _ _ := congrArg (·, vm) hh.blockSize_eq
  read _ _ offset := by simp only [ScopeOp.perform, hh.read_eq]
  write _ _ offset value := by
    obtain ⟨fault, hwrite⟩ := hh.write_eq offset value
    exact ⟨fault, congrArg vm.keepOnError hwrite⟩
  store _ _ block offset := congrArg vm.keepOnError (hh.write_value_eq block offset)
  protect offset protection := congrArg vm.keepOnError (hh.protect_eq offset protection)
  getFunctionIn _ _ name := congrArg (·, vm) (hh.getFunctionIn_eq name)
  defineScript name argc body hname := by simp [Vm.defineScript, hname, hh.module?_eq]
  openFunction frame := congrArg (openAt frame vm) hh.functionSite_eq
  openModule frame := congrArg (openAt frame vm) hh.moduleSite_eq
  call enter id scope shape args := by simp only [callFunction, hh.function_eq]
  argument enter id scope function shape args hargs := by
    -- the function is looked at before the arguments
    obtain ⟨k, -, -, hvalues⟩ := hh.argumentValues_eq hargs
    cases hf : vm.function function with
    | error e =>
      obtain ⟨fault, rfl⟩ := function_eq_error hf
      exact ⟨fault, by simp only [callFunction, hf]⟩
    | ok callee => exact ⟨.staleArgument k, by simp only [callFunction, hf, hvalues]⟩
  invoke enter args := by simp only [invokeFunction, hh.function_eq]

theorem denies : vm.Denies h where
  isKind _ _ kind := congrArg (·, vm) (hh.isKind_eq kind)
  isNumber _ _ := congrArg (·, vm) hh.isNumber_eq
  isLive := congrArg (·, vm) hh.isLive_eq
  release := hh.release_eq
  value := congrArg (·, vm) hh.value?_eq

theorem complains : vm.Complains h where
  free _ scope := by
    simp only [ScopeOp.perform, Vm.free, hh.block_eq]
    exact vm.reported_push ..
  resize _ scope size := by
    simp only [ScopeOp.perform, Vm.resize, hh.nonNull, Bool.false_eq_true, if_false]
    split
    · simp only [Vm.free, hh.block_eq]
      exact ⟨rfl, vm.reported_push ..⟩
    · simp only [resizeBlock, hh.block_eq]
      exact ⟨rfl, vm.reported_push ..⟩

theorem fault?_eq (function : Handle) (callee : Function σ) :
    (Ending.native (.returned h)).fault? function callee vm =
      some (Ending.fault?.nativeReport function callee vm (.staleReturn callee.name)) := by
  simp [Ending.fault?, hh.nonNull, hh.isLive_eq]

theorem enterBody_eq {start : Vm σ} {fuel : ℕ} {function : Handle} {callee : Function σ}
    {values : List Value}
    (hruns : BodyRuns fuel function callee values start (.native (.returned h)) vm) :
    ∃ left, vm.Rests left ∧
      enterBody (run fuel) function callee values start =
        .finished (.faulted
          (Ending.fault?.nativeReport function callee vm (.staleReturn callee.name))) left := by
  refine ⟨_, Rests.leave (.native (.returned h)) function callee ⟨start.scopesOpened⟩ vm, ?_⟩
  rw [hruns.enterBody_eq, Ending.completion, hh.fault?_eq]

theorem faultsReturn : vm.FaultsReturn h where
  call start fuel id scope function callee shape args values hcallee hvalues hargc hruns := by
    obtain ⟨left, hleft, hbody⟩ := hh.enterBody_eq hruns
    have hlength := length_argumentValues hvalues
    refine ⟨_, ?_, (left.entries_push _ _).trans hleft.entries,
      (left.diagnostics_push _ _).trans (congrArg (Diagnostics.push · _ _) hleft.diagnostics)⟩
    simp only [callFunction, function_eq_ok.mpr hcallee, hvalues, hlength, hargc, if_true]
    rw [← hargc, hbody]
    rfl
  invoke start fuel function callee values hcallee hargc hruns := by
    obtain ⟨left, hleft, hbody⟩ := hh.enterBody_eq hruns
    refine ⟨_, ?_, (left.entries_push _ _).trans hleft.entries,
      (left.diagnostics_push _ _).trans (congrArg (Diagnostics.push · _ _) hleft.diagnostics)⟩
    simp only [invokeFunction, function_eq_ok.mpr hcallee, hargc, if_true, hbody]
    rfl

end Dead

end Vm

/-- **Dead handles.** In every state of a machine, a handle that is not null and addresses nothing
is refused wherever it is needed, said to address nothing wherever it is asked about, and reported
wherever it should be freed or resized; and a native body that ends with it has faulted. -/
theorem dead_handle (hh : vm.Dead h) :
    vm.Refuses h ∧ vm.Denies h ∧ vm.Complains h ∧ vm.FaultsReturn h :=
  ⟨hh.refuses, hh.denies, hh.complains, hh.faultsReturn⟩

/-- A native body that returns the handle of the integer that the host of the tour released. -/
def staleBody : Body Unit :=
  .native fun _ _ => .done (r := .native) (NativeAnswer.returned (.ofParts 2 1))

/-- The machine in the midst of the tour, when its module has got a function with this body. -/
def staleTour : Vm Unit := (midTour.addFunction (.ofParts 0 1) "stale" 0 staleBody).2

theorem object?_staleTour :
    staleTour.object? (.ofParts 4 1) = some (.function ⟨"stale", .ofParts 0 1, 0, staleBody⟩) := by
  obtain ⟨past, hpast⟩ := steps_midTour
  have hs := hpast.sound (Vm.sound_new .default ()) addressable_midTour
  obtain ⟨m, hm⟩ := Option.isSome_iff_exists.mp
    (show (midTour.module? (.ofParts 0 1)).isSome = true by decide +kernel)
  have hf : (midTour.addFunction (.ofParts 0 1) "stale" 0 staleBody).2.table.Addressable := by
    unfold Handle.Table.Addressable
    decide +kernel
  have hnew : (midTour.addFunction (.ofParts 0 1) "stale" 0 staleBody).1 = .ofParts 4 1 := by
    decide +kernel
  rw [staleTour, ← hnew]
  exact Vm.object?_addFunction hs (Vm.module?_eq_some.mp hm) hf

/-- A body that at once returns a dead handle leaves it dead. -/
theorem bodyRuns_of_dead (hh : vm.Dead h) (callee : Function σ)
    (hbody : callee.body = .native fun _ _ => .done (r := .native) (NativeAnswer.returned h))
    (function : Handle) (e : Event) :
    ∃ after, BodyRuns 1 function callee [] (vm.record e) (.native (.returned h)) after ∧
      after.Dead h ∧ after.diagnostics = vm.diagnostics :=
  ⟨_, @BodyRuns.native σ 1 function callee [] (vm.record e) _ hbody (.returned h, .new "") _ rfl,
    ⟨hh.nonNull, hh.nothing⟩, rfl⟩

/-- In the midst of the tour, the handle of the released integer is dead. -/
theorem dead_midTour : midTour.Dead (.ofParts 2 1) :=
  ⟨by decide, Option.isNone_iff_eq_none.mp (by decide +kernel)⟩

/-- The handle is dead in the midst of the tour. When the module calls the function, it is dead at
the end of the body, so that the call yields the null handle and leaves a report. -/
theorem dead_handle_midTour :
    (midTour.Dead (.ofParts 2 1) ∧
      (HostOp.value (.ofParts 2 1)).perform midTour = (none, midTour)) ∧
    ∃ vm', callFunction (run 1) ⟨0⟩ ⟨.ofParts 0 1, .ofParts 1 1, []⟩ (.ofParts 4 1) .handle []
        staleTour = .finished (.ok (.handle Handle.null)) vm' ∧
      vm'.diagnostics.pending (.ofParts 0 1) = 1 := by
  have hstart : staleTour.Dead (.ofParts 2 1) :=
    ⟨by decide, Option.isNone_iff_eq_none.mp (by decide +kernel)⟩
  have hempty : staleTour.diagnostics.queue (.ofParts 0 1) = [] := by decide +kernel
  obtain ⟨after, hruns, hend, hdiagnostics⟩ := bodyRuns_of_dead hstart
    ⟨"stale", .ofParts 0 1, 0, staleBody⟩ rfl (.ofParts 4 1) (.dispatched "stale" .handle 0)
  obtain ⟨vm', hcall, -, hpushed⟩ := (dead_handle hend).2.2.2.call staleTour 1 ⟨0⟩
    ⟨.ofParts 0 1, .ofParts 1 1, []⟩ (.ofParts 4 1) _ .handle [] [] object?_staleTour rfl rfl hruns
  refine ⟨⟨dead_midTour, (dead_handle dead_midTour).2.1.value⟩, vm', hcall, ?_⟩
  rw [Diagnostics.pending, hpushed, Diagnostics.queue_push_self, hdiagnostics, hempty]
  simp

end NativeBridge
