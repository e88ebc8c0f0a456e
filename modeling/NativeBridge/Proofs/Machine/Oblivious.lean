import NativeBridge.Proofs.Machine.Behind
import NativeBridge.Proofs.Machine.Run

/-!
# Runs of blind code

A blind program does not find out what the journal has in front. On a blind machine behind other
events it runs as it does on the machine: it comes to the same end with the same answer, and leaves
the machine behind the same events (`run_behind`). All that it enters is code of the machine and so
is blind too.
-/

namespace NativeBridge

variable {σ α β : Type}

/-! ### Outcomes behind events -/

/-- The first run comes to the same end as the second one and leaves its machine behind the events
`pre`. The machine is blind, and the answer is as it should be. -/
inductive Outcome.Behind (pre : Array Event) (post : α → Prop) :
    Outcome σ α → Outcome σ α → Prop
  | finished {a : α} {vm : Vm σ} (ha : post a) (h : vm.Blind) :
    Behind pre post (.finished a (vm.behind pre)) (.finished a vm)
  | halted (why : Halt) {vm : Vm σ} (h : vm.Blind) :
    Behind pre post (.halted why (vm.behind pre)) (.halted why vm)

namespace Outcome.Behind

variable {pre : Array Event} {post : α → Prop} {post' : β → Prop} {o' o : Outcome σ α}

theorem blind (h : o'.Behind pre post o) : o.vm.Blind := by
  cases h <;> assumption

/-- **Sequencing.** -/
theorem bind (h : o'.Behind pre post o) {next : α → Vm σ → Outcome σ β}
    (hnext : ∀ a vm, post a → vm.Blind → (next a (vm.behind pre)).Behind pre post' (next a vm)) :
    (o'.bind next).Behind pre post' (o.bind next) := by
  cases h with
  | finished ha h => exact hnext _ _ ha h
  | halted why h => exact .halted why h

end Outcome.Behind

section Parts

variable {enter : Enter σ} {pre : Array Event} {vm : Vm σ}

/-- Blind programs are entered behind other events as they are entered without them. -/
def EntersBehind (enter : Enter σ) (pre : Array Event) : Prop :=
  ∀ {r : Role} (program : Program σ r) (frame : Frame σ) (vm : Vm σ), program.Blind →
    frame.registrar.Blind → vm.Blind →
    (enter program frame (vm.behind pre)).Behind pre (fun a => a.2.Blind) (enter program frame vm)

/-! ### Bodies -/

theorem completeScript_behind (h : vm.Blind) (function : Handle) (callee : Function σ)
    (answer : Except ScriptError (Option Value)) :
    (completeScript function callee answer (vm.behind pre)).Behind pre (fun _ => True)
      (completeScript function callee answer vm) := by
  cases answer with
  | ok value => exact .finished trivial h
  | error e =>
    have hoccurred : (vm.scriptFaultReport ⟨callee.module, function⟩ callee.name e).2.Blind :=
      h.of_eq rfl rfl
    exact .finished trivial hoccurred

theorem completeNative_behind (h : vm.Blind) (function : Handle) (callee : Function σ)
    (id : ScopeId) (answer : NativeAnswer) :
    (completeNative function callee id answer (vm.behind pre)).Behind pre (fun _ => True)
      (completeNative function callee id answer vm) := by
  have hvalue : answer.value (vm.behind pre) callee.name = answer.value vm callee.name := by
    cases answer <;> rfl
  have hclosed := h.closeScope id
  unfold completeNative
  rw [hvalue, vm.closeScope_behind pre id]
  split
  · exact .finished trivial hclosed
  · next fault _ =>
    have hoccurred :
        ((vm.closeScope id).nativeFaultReport ⟨callee.module, function⟩ fault).2.Blind :=
      hclosed.of_eq rfl rfl
    exact .finished trivial hoccurred

theorem enterBody_behind (hen : EntersBehind enter pre) (h : vm.Blind) (function : Handle)
    {callee : Function σ} (hcallee : callee.body.Blind) (args : List Value) :
    (enterBody enter function callee args (vm.behind pre)).Behind pre (fun _ => True)
      (enterBody enter function callee args vm) := by
  unfold enterBody
  cases hbody : callee.body with
  | script body =>
    rw [hbody] at hcallee
    dsimp only
    rw [vm.record_behind pre]
    have hentered := hen (body args) .bare (vm.record (.entered (.script function args)))
      (hcallee args) (Registrar.blind_new _) (h.of_eq rfl rfl)
    exact hentered.bind fun answer _ _ h => completeScript_behind h function callee answer.1
  | native body =>
    rw [hbody] at hcallee
    let opened := (vm.openScope ⟨callee.module, function⟩).2
    let entry := Event.entered (.native function (args.map Argument.ofValue))
    have hentered := hen (body ⟨vm.scopesOpened⟩ (args.map Argument.ofValue))
      (.handed ⟨vm.scopesOpened⟩) (opened.record entry) (hcallee _ _) (Registrar.blind_new _)
      (h.of_eq rfl rfl)
    rw [← opened.record_behind pre] at hentered
    exact hentered.bind fun answer _ _ h =>
      completeNative_behind h function callee ⟨vm.scopesOpened⟩ answer.1

/-! ### Calls and invocations -/

theorem deliver_behind (vm : Vm σ) (id : ScopeId) (scope : Scope) (function : Handle)
    (callee : Function σ) (shape : Shape) (completion : Completion) :
    deliver id scope function callee shape completion (vm.behind pre) =
      ((deliver id scope function callee shape completion vm).1,
        (deliver id scope function callee shape completion vm).2.behind pre) := by
  unfold deliver
  split
  · rw [vm.push_behind pre]
  · split
    · rw [vm.mint_behind pre]
    · split
      · rfl
      · rw [vm.push_behind pre]
        rfl

theorem blind_deliver (h : vm.Blind) (id : ScopeId) (scope : Scope) (function : Handle)
    (callee : Function σ) (shape : Shape) (completion : Completion) :
    (deliver id scope function callee shape completion vm).2.Blind := by
  unfold deliver
  split
  · exact h.push _ _
  · split
    · exact h.mint _ _
    · split
      · exact h
      · exact h.push _ _

theorem callFunction_behind (hen : EntersBehind enter pre) (h : vm.Blind) (id : ScopeId)
    (scope : Scope) (function : Handle) (shape : Shape) (args : List Argument) :
    (callFunction enter id scope function shape args (vm.behind pre)).Behind pre (fun _ => True)
      (callFunction enter id scope function shape args vm) := by
  unfold callFunction
  rw [show (vm.behind pre).function function = vm.function function from rfl,
    vm.argumentValues_behind pre]
  split
  · exact .finished trivial h
  · next callee hcallee =>
    have hblind := h.of_object? (function_eq_ok.mp hcallee)
    split
    · exact .finished trivial h
    · next values _ =>
      have hrecord : (vm.record (.dispatched callee.name shape values.length)).Blind :=
        h.of_eq rfl rfl
      dsimp only
      rw [vm.record_behind pre]
      split
      · refine (enterBody_behind hen hrecord function hblind values).bind
          fun completion _ _ h => ?_
        rw [deliver_behind]
        exact .finished trivial (blind_deliver h id scope function callee shape completion)
      · rw [Vm.report_behind]
        exact .finished trivial (hrecord.push _ _)

theorem invokeFunction_behind (hen : EntersBehind enter pre) (h : vm.Blind) (function : Handle)
    (args : List Value) :
    (invokeFunction enter function args (vm.behind pre)).Behind pre (fun _ => True)
      (invokeFunction enter function args vm) := by
  unfold invokeFunction
  rw [show (vm.behind pre).function function = vm.function function from rfl]
  split
  · exact .finished trivial h
  · next callee hcallee =>
    split
    · refine (enterBody_behind hen h function (h.of_object? (function_eq_ok.mp hcallee)) args).bind
        fun completion vm _ h => ?_
      cases completion with
      | returned value => exact .finished trivial h
      | faulted r =>
        simp only [yieldValue, vm.push_behind pre]
        exact .finished trivial (h.push _ _)
    · exact .finished trivial h

/-! ### Interrupts -/

theorem settle_behind (pre : Array Event) (vm : Vm σ) (scope : Scope) (label : String)
    (answer : HandlerAnswer) :
    settle scope label answer (vm.behind pre) =
      (settle scope label answer vm).map (Prod.map id (Vm.behind pre)) := by
  have hfault : ∀ fault, ((vm.behind pre).nativeFaultReport scope.site fault).2.push scope.module
        ((vm.behind pre).nativeFaultReport scope.site fault).1 =
      ((vm.nativeFaultReport scope.site fault).2.push scope.module
        (vm.nativeFaultReport scope.site fault).1).behind pre :=
    fun fault => (vm.nativeFaultReport scope.site fault).2.push_behind pre _ _
  cases answer with
  | handled h =>
    simp only [settle, show (vm.behind pre).isLive h = vm.isLive h from rfl]
    split
    · rfl
    · exact congrArg (fun vm => some (Handle.null, vm)) (hfault _)
  | unhandled => rfl
  | failed reason => exact congrArg (fun vm => some (Handle.null, vm)) (vm.report_behind pre ..)
  | panicked payload => exact congrArg (fun vm => some (Handle.null, vm)) (hfault _)

theorem blind_settle (h : vm.Blind) {scope : Scope} {label : String} {answer : HandlerAnswer}
    {k : Handle} {vm' : Vm σ} (hsettle : settle scope label answer vm = some (k, vm')) :
    vm'.Blind := by
  have hfault : ∀ fault, ((vm.nativeFaultReport scope.site fault).2.push scope.module
      (vm.nativeFaultReport scope.site fault).1).Blind :=
    fun fault => (h.of_eq rfl rfl : (vm.nativeFaultReport scope.site fault).2.Blind).push _ _
  cases answer with
  | handled k =>
    simp only [settle, Option.some.injEq] at hsettle
    split at hsettle
    · cases hsettle
      exact h
    · cases hsettle
      exact hfault _
  | unhandled => cases hsettle
  | failed reason =>
    cases hsettle
    exact h.push _ _
  | panicked payload =>
    cases hsettle
    exact hfault _

theorem offerInterrupt_behind (hen : EntersBehind enter pre) (h : vm.Blind) (id : ScopeId)
    (scope : Scope) (code : UInt16) (opcode : Opcode) (args : List Argument) (place : ℕ)
    {handlers : List (Handler σ)} (hhandlers : ∀ handler ∈ handlers, handler.Blind) :
    (offerInterrupt enter id scope code opcode args place handlers (vm.behind pre)).Behind pre
      (fun _ => True) (offerInterrupt enter id scope code opcode args place handlers vm) := by
  induction handlers generalizing vm place with
  | nil =>
    simp only [offerInterrupt, Vm.report_behind]
    exact .finished trivial (h.push _ _)
  | cons handler others ih =>
    obtain ⟨hhandler, hothers⟩ := List.forall_mem_cons.mp hhandlers
    have hentered := hen (handler id code opcode args) (.handed id)
      (vm.record (.entered (.handler place code opcode args))) (hhandler id code opcode args)
      (Registrar.blind_new _) (h.of_eq rfl rfl)
    unfold offerInterrupt
    rw [vm.record_behind pre]
    refine hentered.bind fun answer vm _ h => ?_
    have hbehind := settle_behind pre vm scope (interruptLabel code opcode) answer.1
    cases hsettle : settle scope (interruptLabel code opcode) answer.1 vm with
    | none =>
      rw [hsettle] at hbehind
      rw [hbehind]
      exact ih h (place + 1) hothers
    | some settled =>
      rw [hsettle] at hbehind
      rw [hbehind]
      exact .finished trivial (blind_settle h hsettle)

theorem raiseInterrupt_behind (hen : EntersBehind enter pre) (h : vm.Blind) (id : ScopeId)
    (scope : Scope) (code : UInt16) (opcode : Opcode) (args : List Argument) :
    (raiseInterrupt enter id scope code opcode args (vm.behind pre)).Behind pre (fun _ => True)
      (raiseInterrupt enter id scope code opcode args vm) := by
  unfold raiseInterrupt
  have hrecord : (vm.record (.interrupted code opcode args.length)).Blind := h.of_eq rfl rfl
  rw [vm.record_behind pre]
  exact offerInterrupt_behind hen hrecord id scope code opcode args 0 h.handlers

/-! ### Libraries -/

theorem loadLibrary_behind (hen : EntersBehind enter pre) (h : vm.Blind) (lent : List ScopeId)
    (name : String) {loader : Program σ .loader} (hloader : loader.Blind) :
    (loadLibrary enter lent name loader (vm.behind pre)).Behind pre (fun _ => True)
      (loadLibrary enter lent name loader vm) := by
  unfold loadLibrary
  split
  · have hentered := hen loader (.loading name lent) (vm.record (.entered (.loader name))) hloader
      (Registrar.blind_new _) (h.of_eq rfl rfl)
    rw [vm.record_behind pre]
    refine hentered.bind fun answer vm hanswer h => ?_
    rw [vm.attachLibrary_behind pre]
    exact .finished trivial (h.attachLibrary name answer.2.finish hanswer _)
  · exact .finished trivial h

/-! ### Programs -/

theorem recordRegistration_behind (library name : String) (verdict : Registration) (vm : Vm σ) :
    recordRegistration library name verdict (vm.behind pre) =
      (recordRegistration library name verdict vm).behind pre := by
  cases verdict with
  | accepted => rfl
  | _ => exact vm.record_behind pre _

theorem blind_recordRegistration (h : vm.Blind) (library name : String) (verdict : Registration) :
    (recordRegistration library name verdict vm).Blind := by
  cases verdict with
  | accepted => exact h
  | _ => exact h.of_eq rfl rfl

theorem openAt_behind (frame : Frame σ) (vm : Vm σ) (site : Except BridgeError Site) :
    openAt frame (vm.behind pre) site =
      ((openAt frame vm site).1, (openAt frame vm site).2.1,
        (openAt frame vm site).2.2.behind pre) := by
  cases site <;> rfl

theorem blind_openAt (h : vm.Blind) (frame : Frame σ) (site : Except BridgeError Site) :
    (openAt frame vm site).2.1.registrar = frame.registrar ∧
      (openAt frame vm site).2.2.Blind := by
  cases site with
  | error e => exact ⟨rfl, h⟩
  | ok site => exact ⟨rfl, h.of_eq rfl rfl⟩

/-- **Programs.** A blind program evaluates behind other events as it does without them. -/
theorem eval_behind (hen : EntersBehind enter pre) {r : Role} (program : Program σ r)
    (hprogram : program.Blind) {frame : Frame σ} (hframe : frame.registrar.Blind) (h : vm.Blind) :
    (program.eval enter frame (vm.behind pre)).Behind pre (fun a => a.2.registrar.Blind)
      (program.eval enter frame vm) := by
  -- the code that is entered is given by `hen`, so the induction is on this program only
  induction program generalizing frame vm with
  | done answer => exact .finished hframe h
  | within id op next ih =>
    unfold Program.eval
    rw [show frame.scope? (vm.behind pre) id = frame.scope? vm id from rfl]
    cases frame.scope? vm id with
    | none => exact .halted _ h
    | some scope =>
      dsimp only
      rw [op.perform_behind pre vm id scope]
      exact ih _ (hprogram _) hframe (h.scopeOp id scope op)
  | host op next ih =>
    unfold Program.eval
    dsimp only
    rw [HostOp.perform_behind pre vm hprogram.1]
    exact ih _ (hprogram.2 _) hframe (h.hostOp op)
  | call id function shape args next ih =>
    unfold Program.eval
    rw [show frame.scope? (vm.behind pre) id = frame.scope? vm id from rfl]
    cases frame.scope? vm id with
    | none => exact .halted _ h
    | some scope =>
      exact (callFunction_behind hen h id scope function shape args).bind fun result _ _ h =>
        ih result (hprogram result) hframe h
  | interrupt id code opcode args next ih =>
    unfold Program.eval
    rw [show frame.scope? (vm.behind pre) id = frame.scope? vm id from rfl]
    cases frame.scope? vm id with
    | none => exact .halted _ h
    | some scope =>
      exact (raiseInterrupt_behind hen h id scope code opcode args).bind fun k _ _ h =>
        ih k (hprogram k) hframe h
  | invoke function args next ih =>
    exact (invokeFunction_behind hen h function args).bind fun result _ _ h =>
      ih result (hprogram result) hframe h
  | openFunction function next ih =>
    unfold Program.eval
    rw [show (vm.behind pre).functionSite function = vm.functionSite function from rfl,
      openAt_behind]
    obtain ⟨hregistrar, hopened⟩ := blind_openAt h frame (vm.functionSite function)
    exact ih _ (hprogram _) (hregistrar ▸ hframe) hopened
  | openModule module next ih =>
    unfold Program.eval
    rw [show (vm.behind pre).moduleSite module = vm.moduleSite module from rfl,
      openAt_behind]
    obtain ⟨hregistrar, hopened⟩ := blind_openAt h frame (vm.moduleSite module)
    exact ih _ (hprogram _) (hregistrar ▸ hframe) hopened
  | close id next ih =>
    unfold Program.eval
    rw [vm.closeScope_behind pre id]
    split
    · exact ih hprogram hframe (h.closeScope id)
    · exact .halted _ h
  | defineScript module name argc body next _ ih =>
    unfold Program.eval
    dsimp only
    rw [vm.defineScript_behind pre module name argc body]
    exact ih _ (hprogram.2 _) hframe (h.defineScript module name argc hprogram.1)
  | loadLibrary module loader next _ ih =>
    exact (loadLibrary_behind hen h _ module hprogram.1).bind fun result _ _ h =>
      ih result (hprogram.2 result) hframe h
  | register name argc body next _ ih =>
    unfold Program.eval
    dsimp only
    rw [recordRegistration_behind]
    exact ih _ (hprogram.2 _) (hframe.insert name hprogram.1) (blind_recordRegistration h _ _ _)
  | addHandler handler next _ ih =>
    have hadded : { vm with handlers := vm.handlers ++ [handler] }.Blind := by
      refine ⟨h.objects, fun k hk => ?_⟩
      rcases List.mem_append.mp hk with hmem | hmem
      · exact h.handlers k hmem
      · rw [List.mem_singleton.mp hmem]
        exact hprogram.1
    exact ih hprogram.2 hframe hadded
  | «recall» next ih => exact ih vm.memory (hprogram _) hframe h
  | remember memory next ih =>
    have hreplaced : { vm with memory := memory }.Blind := h.of_eq rfl rfl
    exact ih hprogram hframe hreplaced

end Parts

/-- **Runs.** A run of a blind program on a blind machine does not depend on what the journal has
in front, and it leaves the machine blind. -/
theorem run_behind (pre : Array Event) (fuel : ℕ) : EntersBehind (run fuel : Enter σ) pre := by
  induction fuel with
  | zero => exact fun _ _ _ _ _ h => .halted _ h
  | succ fuel ih =>
    intro r program frame vm hprogram hframe h
    refine (eval_behind ih program hprogram hframe h).bind fun answer vm hanswer h => ?_
    rw [vm.closeScopes_behind pre]
    exact .finished hanswer (h.closeScopes _)

end NativeBridge
