import NativeBridge.Proofs.Machine.Masked
import NativeBridge.Proofs.Contents

/-!
# Noninterference of protected contents

What cells hold that are protected against reads does not influence a run that protects no cell
(`read_protection_noninterference`): from machines that are alike, a program reaches the same
answer, and machines that are alike again. So everything that is not masked is the same, the
journal of events and entries, the reports, the counters, the handles and what the programs
remember.

That a run protects no cell is a condition on the operations that it really requests (`Abstains`),
with those of all bodies, handlers and loaders that it enters. It is defined along the run, and it
is asked for one of the two runs only.
-/

namespace NativeBridge

variable {σ α β : Type}

/-! ### Runs that protect no cell -/

section Abstaining

/-- A condition on a program that is entered in a frame. -/
abbrev Condition (σ : Type) := {r : Role} → Program σ r → Frame σ → Vm σ → Prop

variable (enter : Enter σ) (abstains : Condition σ)

/-- The body of a function, if it is entered, protects no cell. -/
def bodyAbstains (function : Handle) (callee : Function σ) (args : List Value) (vm : Vm σ) : Prop :=
  match callee.body with
  | .script body => abstains (body args) .bare (vm.record (.entered (.script function args)))
  | .native body =>
    let args := args.map Argument.ofValue
    let (id, vm) := vm.openScope ⟨callee.module, function⟩
    abstains (body id args) (.handed id) (vm.record (.entered (.native function args)))

/-- A call protects no cell. -/
def callAbstains (function : Handle) (shape : Shape) (args : List Argument) (vm : Vm σ) : Prop :=
  ∀ callee values, vm.function function = .ok callee → vm.argumentValues args = .ok values →
    values.length = callee.argc.toNat →
    bodyAbstains abstains function callee values
      (vm.record (.dispatched callee.name shape values.length))

/-- An invocation protects no cell. -/
def invokeAbstains (function : Handle) (args : List Value) (vm : Vm σ) : Prop :=
  ∀ callee, vm.function function = .ok callee → args.length = callee.argc.toNat →
    bodyAbstains abstains function callee args vm

/-- The handlers to which an interrupt is offered protect no cell. -/
def offersAbstain (id : ScopeId) (scope : Scope) (code : UInt16) (opcode : Opcode)
    (args : List Argument) : ℕ → List (Handler σ) → Vm σ → Prop
  | _, [], _ => True
  | place, handler :: others, vm =>
    let entered := vm.record (.entered (.handler place code opcode args))
    abstains (handler id code opcode args) (.handed id) entered ∧
      ∀ answer after, enter (handler id code opcode args) (.handed id) entered =
          .finished answer after →
        settle scope (interruptLabel code opcode) answer.1 after = none →
        offersAbstain id scope code opcode args (place + 1) others after

/-- The loader of a library protects no cell. -/
def loadAbstains (lent : List ScopeId) (name : String) (loader : Program σ .loader) (vm : Vm σ) :
    Prop :=
  validName name = true → abstains loader (.loading name lent) (vm.record (.entered (.loader name)))

/-- A program protects no cell when it runs in a frame, and neither do the programs that it
enters. -/
def Program.AbstainsBy {r : Role} : Program σ r → Frame σ → Vm σ → Prop
  | .done _, _, _ => True
  | .within id op next, frame, vm =>
    ∀ scope, frame.scope? vm id = some scope →
      (next (op.perform vm id scope).1).AbstainsBy frame (op.perform vm id scope).2
  | .host op next, frame, vm =>
    (∀ b i p, op ≠ .protect b i p) ∧ (next (op.perform vm).1).AbstainsBy frame (op.perform vm).2
  | .call id function shape args next, frame, vm =>
    ∀ scope, frame.scope? vm id = some scope →
      callAbstains abstains function shape args vm ∧
      ∀ result after, callFunction enter id scope function shape args vm = .finished result after →
        (next result).AbstainsBy frame after
  | .interrupt id code opcode args next, frame, vm =>
    ∀ scope, frame.scope? vm id = some scope →
      offersAbstain enter abstains id scope code opcode args 0 vm.handlers
        (vm.record (.interrupted code opcode args.length)) ∧
      ∀ h after, raiseInterrupt enter id scope code opcode args vm = .finished h after →
        (next h).AbstainsBy frame after
  | .invoke function args next, frame, vm =>
    invokeAbstains abstains function args vm ∧
      ∀ result after, invokeFunction enter function args vm = .finished result after →
        (next result).AbstainsBy frame after
  | .openFunction function next, frame, vm =>
    let (result, frame, vm) := openAt frame vm (vm.functionSite function)
    (next result).AbstainsBy frame vm
  | .openModule module next, frame, vm =>
    let (result, frame, vm) := openAt frame vm (vm.moduleSite module)
    (next result).AbstainsBy frame vm
  | .close id next, frame, vm =>
    id ∈ frame.opened → next.AbstainsBy (frame.dropScope id) (vm.closeScope id)
  | .defineScript module name argc body next, frame, vm =>
    let (result, vm) := vm.defineScript module name argc body
    (next result).AbstainsBy frame vm
  | .loadLibrary module loader next, frame, vm =>
    loadAbstains abstains frame.held module loader vm ∧
      ∀ result after,
        NativeBridge.loadLibrary enter frame.held module loader vm = .finished result after →
        (next result).AbstainsBy frame after
  | .register name argc body next, frame, vm =>
    let verdict := frame.registrar.verdict name
    (next (decide (verdict = .accepted))).AbstainsBy
      { frame with registrar := frame.registrar.insert name ⟨argc, body⟩ }
      (recordRegistration frame.registrar.library name verdict vm)
  | .addHandler handler next, frame, vm =>
    next.AbstainsBy frame { vm with handlers := vm.handlers ++ [handler] }
  | .recall next, frame, vm => (next vm.memory).AbstainsBy frame vm
  | .remember memory next, frame, vm => next.AbstainsBy frame { vm with memory := memory }

end Abstaining

/-- A run protects no cell. -/
def Abstains : ℕ → Condition σ
  | 0 => fun _ _ _ => True
  | fuel + 1 => fun program frame vm => program.AbstainsBy (run fuel) (Abstains fuel) frame vm

/-! ### Outcomes that are alike -/

/-- The runs come to the same end, and leave machines that are alike. -/
inductive Outcome.Alike : Outcome σ α → Outcome σ α → Prop
  | finished (a : α) {vm₁ vm₂ : Vm σ} (h : vm₁.Alike vm₂) :
    Alike (.finished a vm₁) (.finished a vm₂)
  | halted (why : Halt) {vm₁ vm₂ : Vm σ} (h : vm₁.Alike vm₂) :
    Alike (.halted why vm₁) (.halted why vm₂)

theorem Outcome.Alike.vm {o₁ o₂ : Outcome σ α} (h : o₁.Alike o₂) : o₁.vm.Alike o₂.vm := by
  cases h <;> assumption

theorem Outcome.Alike.answer? {o₁ o₂ : Outcome σ α} (h : o₁.Alike o₂) :
    o₁.answer? = o₂.answer? := by
  cases h <;> rfl

/-- **Sequencing.** Runs that are alike go on alike. -/
theorem Outcome.Alike.bind {o₁ o₂ : Outcome σ α} (h : o₁.Alike o₂)
    {next₁ next₂ : α → Vm σ → Outcome σ β}
    (hnext : ∀ a vm₁ vm₂, o₁ = .finished a vm₁ → vm₁.Alike vm₂ →
      (next₁ a vm₁).Alike (next₂ a vm₂)) :
    (o₁.bind next₁).Alike (o₂.bind next₂) := by
  cases h with
  | finished a h => exact hnext a _ _ rfl h
  | halted why h => exact .halted why h

/-- Runs that end with a reply of an operation. -/
theorem Outcome.Alike.of_reply {a₁ a₂ : α} {vm₁ vm₂ : Vm σ} (ha : a₁ = a₂) (h : vm₁.Alike vm₂) :
    (Outcome.finished a₁ vm₁).Alike (.finished a₂ vm₂) := by
  subst ha
  exact .finished a₁ h

/-! ### Bodies -/

section Parts

variable {enter : Enter σ} {abstains : Condition σ} {vm₁ vm₂ : Vm σ}

/-- Programs that protect no cell are entered alike in machines that are alike. -/
def EntersAlike (enter : Enter σ) (abstains : Condition σ) : Prop :=
  ∀ {r : Role} (program : Program σ r) (frame : Frame σ) (vm₁ vm₂ : Vm σ), vm₁.Alike vm₂ →
    abstains program frame vm₁ → (enter program frame vm₁).Alike (enter program frame vm₂)

theorem completeScript_alike (h : vm₁.Alike vm₂) (function : Handle) (callee : Function σ)
    (answer : Except ScriptError (Option Value)) :
    (completeScript function callee answer vm₁).Alike
      (completeScript function callee answer vm₂) := by
  cases answer with
  | ok value => exact .finished _ h
  | error e =>
    obtain ⟨hreport, hoccur⟩ := h.map_reply
      (Vm.scriptFaultReport · ⟨callee.module, function⟩ callee.name e) fun _ => rfl
    simp only [completeScript, hreport]
    exact .finished _ hoccur

theorem completeNative_alike (h : vm₁.Alike vm₂) (function : Handle) (callee : Function σ)
    (id : ScopeId) (answer : NativeAnswer) :
    (completeNative function callee id answer vm₁).Alike
      (completeNative function callee id answer vm₂) := by
  have hvalue : answer.value vm₁ callee.name = answer.value vm₂ callee.name := by
    refine h.congr (fun vm => answer.value vm callee.name) fun vm => ?_
    cases answer with
    | returned k => rw [NativeAnswer.value, Vm.value?_masked, NativeAnswer.value]
    | panicked payload => rfl
  have hclosed := h.map (Vm.closeScope · id) (Vm.closeScope_masked · id)
  unfold completeNative
  rw [hvalue]
  split
  · exact .finished _ hclosed
  · next fault _ =>
    obtain ⟨hreport, hoccur⟩ := hclosed.map_reply
      (Vm.nativeFaultReport · ⟨callee.module, function⟩ fault) fun _ => rfl
    simp only [hreport]
    exact .finished _ hoccur

theorem enterBody_alike (hen : EntersAlike enter abstains) (h : vm₁.Alike vm₂)
    {function : Handle} {callee : Function σ} {args : List Value}
    (ha : bodyAbstains abstains function callee args vm₁) :
    (enterBody enter function callee args vm₁).Alike
      (enterBody enter function callee args vm₂) := by
  have hrecord := fun e => h.map (Vm.record · e) fun _ => rfl
  unfold bodyAbstains at ha
  unfold enterBody
  cases hbody : callee.body with
  | script body =>
    rw [hbody] at ha
    exact (hen _ _ _ _ (hrecord _) ha).bind fun answer _ _ _ h =>
      completeScript_alike h function callee answer.1
  | native body =>
    rw [hbody] at ha
    obtain ⟨hid, hopened⟩ := h.map_reply (Vm.openScope · ⟨callee.module, function⟩) fun _ => rfl
    -- the scopes that the bodies get have the same name
    generalize vm₁.openScope ⟨callee.module, function⟩ = opened₁,
      vm₂.openScope ⟨callee.module, function⟩ = opened₂ at ha hid hopened ⊢
    obtain ⟨id, vm₁'⟩ := opened₁
    obtain ⟨_, vm₂'⟩ := opened₂
    obtain rfl := hid
    have hentered := hopened.map
      (Vm.record · (.entered (.native function (args.map Argument.ofValue)))) fun _ => rfl
    exact (hen _ _ _ _ hentered ha).bind fun answer _ _ _ h =>
      completeNative_alike h function callee id answer.1

/-! ### Calls and invocations -/

theorem deliver_alike (h : vm₁.Alike vm₂) (id : ScopeId) (scope : Scope) (function : Handle)
    (callee : Function σ) (shape : Shape) (completion : Completion) :
    (deliver id scope function callee shape completion vm₁).1 =
        (deliver id scope function callee shape completion vm₂).1 ∧
      (deliver id scope function callee shape completion vm₁).2.Alike
        (deliver id scope function callee shape completion vm₂).2 := by
  have hpush := fun r => h.map (Vm.push · scope.module r) (Vm.push_masked · scope.module r)
  have hoptions := h.congr Vm.options fun _ => rfl
  unfold deliver
  split
  · exact ⟨rfl, hpush _⟩
  · next value =>
    split
    · obtain ⟨hreply, hmint⟩ := h.map_reply (Vm.mint · id (value.getD .null))
        (Vm.mint_masked · id (value.getD .null))
      exact ⟨congrArg Result.handle hreply, hmint⟩
    · split
      · exact ⟨rfl, h⟩
      · rw [hoptions]
        exact ⟨rfl, hpush _⟩

theorem callFunction_alike (hen : EntersAlike enter abstains) (h : vm₁.Alike vm₂) (id : ScopeId)
    (scope : Scope) {function : Handle} {shape : Shape} {args : List Argument}
    (ha : callAbstains abstains function shape args vm₁) :
    (callFunction enter id scope function shape args vm₁).Alike
      (callFunction enter id scope function shape args vm₂) := by
  have hrecord := fun e => h.map (Vm.record · e) fun _ => rfl
  unfold callFunction
  rw [← h.congr (Vm.function · function) (Vm.function_masked · function),
    ← h.congr (Vm.argumentValues · args) (Vm.argumentValues_masked · args)]
  split
  · exact .finished _ h
  · next callee hcallee =>
    split
    · exact .finished _ h
    · next values hvalues =>
      dsimp only
      split
      · next hargc =>
        have hbody := ha callee values hcallee hvalues hargc
        refine (enterBody_alike hen (hrecord _) hbody).bind fun completion _ _ _ h => ?_
        obtain ⟨hresult, hdeliver⟩ := deliver_alike h id scope function callee shape completion
        exact .of_reply (congrArg Except.ok hresult) hdeliver
      · exact .finished _ ((hrecord _).map (Vm.report · scope.site true .error _)
          (Vm.report_masked · scope.site true .error _))

theorem invokeFunction_alike (hen : EntersAlike enter abstains) (h : vm₁.Alike vm₂)
    {function : Handle} {args : List Value} (ha : invokeAbstains abstains function args vm₁) :
    (invokeFunction enter function args vm₁).Alike (invokeFunction enter function args vm₂) := by
  unfold invokeFunction
  rw [← h.congr (Vm.function · function) (Vm.function_masked · function)]
  split
  · exact .finished _ h
  · next callee hcallee =>
    split
    · next hargc =>
      refine (enterBody_alike hen h (ha callee hcallee hargc)).bind fun completion _ _ _ h => ?_
      cases completion with
      | returned value => exact .finished _ h
      | faulted r =>
        exact .finished _ (h.map (Vm.push · callee.module r) (Vm.push_masked · callee.module r))
    · exact .finished _ h

/-! ### Interrupts -/

theorem settle_alike (h : vm₁.Alike vm₂) (scope : Scope) (label : String)
    (answer : HandlerAnswer) :
    (settle scope label answer vm₁ = none ∧ settle scope label answer vm₂ = none) ∨
      ∃ k vm₁' vm₂', settle scope label answer vm₁ = some (k, vm₁') ∧
        settle scope label answer vm₂ = some (k, vm₂') ∧ vm₁'.Alike vm₂' := by
  have hfault : ∀ fault, ((vm₁.nativeFaultReport scope.site fault).2.push scope.module
      (vm₁.nativeFaultReport scope.site fault).1).Alike
        ((vm₂.nativeFaultReport scope.site fault).2.push scope.module
          (vm₂.nativeFaultReport scope.site fault).1) := by
    intro fault
    obtain ⟨hreport, hoccur⟩ := h.map_reply (Vm.nativeFaultReport · scope.site fault) fun _ => rfl
    rw [hreport]
    exact hoccur.map (Vm.push · scope.module _) (Vm.push_masked · scope.module _)
  cases answer with
  | handled k =>
    refine .inr ?_
    rw [settle, settle, h.congr (Vm.isLive · k) (Vm.isLive_masked · k)]
    split
    · exact ⟨_, _, _, rfl, rfl, h⟩
    · exact ⟨_, _, _, rfl, rfl, hfault _⟩
  | unhandled => exact .inl ⟨rfl, rfl⟩
  | failed reason =>
    exact .inr ⟨_, _, _, rfl, rfl, h.map (Vm.report · scope.site false .error _)
      (Vm.report_masked · scope.site false .error _)⟩
  | panicked payload => exact .inr ⟨_, _, _, rfl, rfl, hfault _⟩

theorem offerInterrupt_alike (hen : EntersAlike enter abstains) (h : vm₁.Alike vm₂) (id : ScopeId)
    (scope : Scope) (code : UInt16) (opcode : Opcode) (args : List Argument) (place : ℕ)
    {handlers : List (Handler σ)}
    (ha : offersAbstain enter abstains id scope code opcode args place handlers vm₁) :
    (offerInterrupt enter id scope code opcode args place handlers vm₁).Alike
      (offerInterrupt enter id scope code opcode args place handlers vm₂) := by
  induction handlers generalizing vm₁ vm₂ place with
  | nil =>
    exact .finished _ (h.map (Vm.report · scope.site false .error _)
      (Vm.report_masked · scope.site false .error _))
  | cons handler others ih =>
    have hentered := h.map (Vm.record · (.entered (.handler place code opcode args))) fun _ => rfl
    obtain ⟨hhandler, hothers⟩ := ha
    unfold offerInterrupt
    refine (hen _ _ _ _ hentered hhandler).bind fun answer after₁ after₂ hfinished h => ?_
    rcases settle_alike h scope (interruptLabel code opcode) answer.1 with
      ⟨hnone₁, hnone₂⟩ | ⟨k, vm₁', vm₂', hsome₁, hsome₂, h'⟩
    · rw [hnone₁, hnone₂]
      exact ih h (place + 1) (hothers answer after₁ hfinished hnone₁)
    · rw [hsome₁, hsome₂]
      exact .finished k h'

theorem raiseInterrupt_alike (hen : EntersAlike enter abstains) (h : vm₁.Alike vm₂) (id : ScopeId)
    (scope : Scope) {code : UInt16} {opcode : Opcode} {args : List Argument}
    (ha : offersAbstain enter abstains id scope code opcode args 0 vm₁.handlers
      (vm₁.record (.interrupted code opcode args.length))) :
    (raiseInterrupt enter id scope code opcode args vm₁).Alike
      (raiseInterrupt enter id scope code opcode args vm₂) := by
  unfold raiseInterrupt
  rw [← h.congr Vm.handlers fun _ => rfl]
  exact offerInterrupt_alike hen (h.map (Vm.record · _) fun _ => rfl) id scope code opcode args 0 ha

/-! ### Libraries -/

theorem loadLibrary_alike (hen : EntersAlike enter abstains) (h : vm₁.Alike vm₂)
    {lent : List ScopeId} {name : String} {loader : Program σ .loader}
    (ha : loadAbstains abstains lent name loader vm₁) :
    (loadLibrary enter lent name loader vm₁).Alike (loadLibrary enter lent name loader vm₂) := by
  unfold loadLibrary
  split
  · next hname =>
    have hentered := h.map (Vm.record · (.entered (.loader name))) fun _ => rfl
    refine (hen _ _ _ _ hentered (ha hname)).bind fun answer _ _ _ h => ?_
    obtain ⟨hresult, hattach⟩ := h.map_reply
      (Vm.attachLibrary · name answer.2.finish answer.2.rejected)
      (Vm.attachLibrary_masked · name answer.2.finish answer.2.rejected)
    exact .of_reply hresult hattach
  · exact .finished _ h

/-! ### Programs -/

/-- A program opens a scope alike. -/
theorem openAt_alike (h : vm₁.Alike vm₂) (frame : Frame σ) (site : Except BridgeError Site) :
    (openAt frame vm₁ site).1 = (openAt frame vm₂ site).1 ∧
      (openAt frame vm₁ site).2.1 = (openAt frame vm₂ site).2.1 ∧
      (openAt frame vm₁ site).2.2.Alike (openAt frame vm₂ site).2.2 := by
  cases site with
  | error e => exact ⟨rfl, rfl, h⟩
  | ok site =>
    obtain ⟨hid, hopened⟩ := h.map_reply (Vm.openScope · site) fun _ => rfl
    exact ⟨congrArg Except.ok hid, congrArg frame.addScope hid, hopened⟩

theorem scope?_alike (h : vm₁.Alike vm₂) (frame : Frame σ) (id : ScopeId) :
    frame.scope? vm₁ id = frame.scope? vm₂ id := by
  rw [Frame.scope?, h.scopes, Frame.scope?]

/-- **Programs.** A program that protects no cell runs alike. -/
theorem eval_alike (hen : EntersAlike enter abstains) {r : Role} (program : Program σ r)
    {frame : Frame σ} (h : vm₁.Alike vm₂) (ha : program.AbstainsBy enter abstains frame vm₁) :
    (program.eval enter frame vm₁).Alike (program.eval enter frame vm₂) := by
  -- the programs that are entered are given by `hen`, so the induction is on this one only
  induction program generalizing frame vm₁ vm₂ with
  | done answer => exact .finished _ h
  | within id op next ih =>
    unfold Program.eval
    rw [← scope?_alike h frame id]
    cases hscope : frame.scope? vm₁ id with
    | none => exact .halted _ h
    | some scope =>
      obtain ⟨hreply, hop⟩ := op.perform_alike h id scope
      dsimp only
      rw [← hreply]
      exact ih _ hop (ha scope hscope)
  | host op next ih =>
    obtain ⟨hprotect, hnext⟩ := ha
    obtain ⟨hreply, hop⟩ := HostOp.perform_alike h hprotect
    unfold Program.eval
    dsimp only
    rw [← hreply]
    exact ih _ hop hnext
  | call id function shape args next ih =>
    unfold Program.eval
    rw [← scope?_alike h frame id]
    cases hscope : frame.scope? vm₁ id with
    | none => exact .halted _ h
    | some scope =>
      obtain ⟨hcall, hnext⟩ := ha scope hscope
      exact (callFunction_alike hen h id scope hcall).bind fun result _ _ hfinished h =>
        ih result h (hnext result _ hfinished)
  | interrupt id code opcode args next ih =>
    unfold Program.eval
    rw [← scope?_alike h frame id]
    cases hscope : frame.scope? vm₁ id with
    | none => exact .halted _ h
    | some scope =>
      obtain ⟨hraise, hnext⟩ := ha scope hscope
      exact (raiseInterrupt_alike hen h id scope hraise).bind fun k _ _ hfinished h =>
        ih k h (hnext k _ hfinished)
  | invoke function args next ih =>
    obtain ⟨hinvoke, hnext⟩ := ha
    exact (invokeFunction_alike hen h hinvoke).bind fun result _ _ hfinished h =>
      ih result h (hnext result _ hfinished)
  | openFunction function next ih =>
    obtain ⟨hresult, hframe, hopen⟩ := openAt_alike h frame (vm₁.functionSite function)
    unfold Program.eval
    dsimp only
    rw [← h.congr (Vm.functionSite · function) (Vm.functionSite_masked · function), ← hresult,
      ← hframe]
    exact ih _ hopen ha
  | openModule module next ih =>
    obtain ⟨hresult, hframe, hopen⟩ := openAt_alike h frame (vm₁.moduleSite module)
    unfold Program.eval
    dsimp only
    rw [← h.congr (Vm.moduleSite · module) (Vm.moduleSite_masked · module), ← hresult, ← hframe]
    exact ih _ hopen ha
  | close id next ih =>
    unfold Program.eval
    split
    · next hid => exact ih (h.map (Vm.closeScope · id) (Vm.closeScope_masked · id)) (ha hid)
    · exact .halted _ h
  | defineScript module name argc body next _ ih =>
    obtain ⟨hresult, hdefine⟩ := h.map_reply (Vm.defineScript · module name argc body)
      (Vm.defineScript_masked · module name argc body)
    unfold Program.eval
    dsimp only
    rw [← hresult]
    exact ih _ hdefine ha
  | loadLibrary module loader next _ ih =>
    obtain ⟨hload, hnext⟩ := ha
    exact (loadLibrary_alike hen h hload).bind fun result _ _ hfinished h =>
      ih result h (hnext result _ hfinished)
  | register name argc body next _ ih =>
    have hrecord : ∀ verdict, (recordRegistration frame.registrar.library name verdict vm₁).Alike
        (recordRegistration frame.registrar.library name verdict vm₂) := by
      intro verdict
      cases verdict with
      | accepted => exact h
      | _ => exact h.map (Vm.record · _) fun _ => rfl
    exact ih _ (hrecord _) ha
  | addHandler handler next _ ih =>
    exact ih (h.map (fun vm => { vm with handlers := vm.handlers ++ [handler] }) fun _ => rfl) ha
  | «recall» next ih =>
    unfold Program.eval
    rw [← h.congr Vm.memory fun _ => rfl]
    exact ih _ h ha
  | remember memory next ih =>
    exact ih (h.map (fun vm => { vm with memory := memory }) fun _ => rfl) ha

end Parts

/-- **Runs.** A run that protects no cell goes alike in machines that are alike. -/
theorem entersAlike_run (fuel : ℕ) : EntersAlike (run fuel : Enter σ) (Abstains fuel) := by
  induction fuel with
  | zero => exact fun _ _ _ _ h _ => .halted _ h
  | succ fuel ih =>
    intro r program frame vm₁ vm₂ h ha
    refine (eval_alike ih program h ha).bind fun answer _ _ _ h => ?_
    exact .finished _ (h.map (Vm.closeScopes · answer.2.opened)
      (Vm.closeScopes_masked · answer.2.opened))

/-- **Noninterference.** A run that protects no cell does not depend on what cells hold that are
protected against reads. It comes to the same end with the same answer and the same registrations,
and whether it ends or halts, what it leaves is the same apart from such contents: the journal with
all events and entries, the reports, the modules, the counters, the scopes with the handles that
they minted, the handlers, and the memory, in which a program may keep whatever it was told. -/
theorem read_protection_noninterference {vm₁ vm₂ : Vm σ} (h : vm₁.Alike vm₂) {fuel : ℕ} {r : Role}
    {program : Program σ r} {frame : Frame σ} (ha : Abstains fuel program frame vm₁) :
    let o₁ := run fuel program frame vm₁
    let o₂ := run fuel program frame vm₂
    o₁.Alike o₂ ∧ o₁.answer? = o₂.answer? ∧ o₁.vm.Alike o₂.vm ∧
      o₁.vm.journal = o₂.vm.journal ∧ o₁.vm.entries = o₂.vm.entries ∧
      o₁.vm.diagnostics = o₂.vm.diagnostics ∧ o₁.vm.modules = o₂.vm.modules ∧
      o₁.vm.usage = o₂.vm.usage ∧ o₁.vm.scopes = o₂.vm.scopes ∧
      o₁.vm.handlers = o₂.vm.handlers ∧ o₁.vm.memory = o₂.vm.memory := by
  intro o₁ o₂
  have halike : o₁.Alike o₂ := entersAlike_run fuel program frame vm₁ vm₂ h ha
  have hvm := halike.vm
  exact ⟨halike, halike.answer?, hvm, hvm.congr Vm.journal fun _ => rfl,
    hvm.congr Vm.entries fun _ => rfl, hvm.congr Vm.diagnostics fun _ => rfl,
    hvm.congr Vm.modules fun _ => rfl, hvm.congr Vm.usage fun _ => rfl, hvm.scopes,
    hvm.congr Vm.handlers fun _ => rfl, hvm.congr Vm.memory fun _ => rfl⟩

/-- The host protects the first cell of the block of the tour against reads. -/
def guardTour : Act Unit := .host (.protect tourBlock 0 .reads)

/-- A program that tries to read the first cell of the block of the tour, resizes the block and
frees it. -/
def prowlTour : Program Unit .native :=
  .within ⟨0⟩ (.read tourBlock 0) fun _ =>
    .within ⟨0⟩ (.resize tourBlock 4) fun _ =>
      .within ⟨0⟩ (.free tourBlock) fun _ =>
        .done (NativeAnswer.returned Handle.null)

theorem abstains_prowlTour (frame : Frame Unit) (vm : Vm Unit) : Abstains 1 prowlTour frame vm := by
  intro _ _ _ _ _ _
  trivial

/-- In the midst of the tour, whether the protected cell holds a text or nothing, the program leaves
the same journal. -/
theorem read_protection_noninterference_midTour :
    let empty := guardTour.perform midTour
    let filled := storeTour.perform empty
    ((empty.holdings.cell? tourBlock 0).bind Heap.Cell.value).isSome = false ∧
      ((filled.holdings.cell? tourBlock 0).bind Heap.Cell.value).isSome = true ∧
      (run 1 prowlTour (.handed ⟨0⟩) empty).vm.journal =
        (run 1 prowlTour (.handed ⟨0⟩) filled).vm.journal := by
  intro empty filled
  obtain ⟨blk, c, hcell, hprot⟩ := Vm.protection?_eq_some.mp
    (show empty.protection? tourBlock 0 = some .reads by decide +kernel)
  obtain ⟨scope, hid⟩ : ∃ scope, empty.scopes.get? ⟨0⟩ = some scope :=
    Option.isSome_iff_exists.mp (by decide +kernel)
  obtain ⟨written, hw⟩ := Vm.exists_write
    (show (empty.write tourBlock 0 (.ofParts 2 2)).isOk = true by decide +kernel)
  have hfilled : filled = written := Act.perform_write hid hw
  have halike : empty.Alike filled :=
    hfilled ▸ Vm.Alike.of_write hcell (by rw [hprot]; rfl) hw
  obtain ⟨-, -, -, hjournal, -⟩ :=
    read_protection_noninterference halike (abstains_prowlTour (.handed ⟨0⟩) empty)
  exact ⟨by decide +kernel, by decide +kernel, hjournal⟩

end NativeBridge
