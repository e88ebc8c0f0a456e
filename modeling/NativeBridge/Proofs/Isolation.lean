import NativeBridge.Proofs.Machine.Call
import NativeBridge.Proofs.Machine.Queue

/-!
# Isolation of reports

The queue of a module changes only by what is done for the module (`diagnostics_isolated`): through
scopes that are bound to it, and by invocations of its functions. All that is done through scopes of
other modules leaves the queue as it is and learns nothing from it, except for what the code does
that it enters.
-/

namespace NativeBridge

variable {σ α β : Type} {vm : Vm σ} {owner : Handle}

open Diagnostics (Change)

/-! ### Acts -/

/-- The act adds the report `r` to the queue of the module `owner`. -/
inductive Act.Adds (past : List (Step σ)) (vm : Vm σ) (owner : Handle) (r : Report) : Act σ → Prop
  /-- A heap operation through a scope of the module fails. -/
  | heap {id : ScopeId} {scope : Scope} {op : ScopeOp} (hid : vm.scopes.get? id = some scope)
    (howner : scope.module = owner) (hr : op.failure? vm scope = some r) :
    Adds past vm owner r (.within id op)
  /-- A call or an interrupt through a scope of the module leaves a report. -/
  | raised {id : ScopeId} {scope : Scope} (hid : vm.scopes.get? id = some scope)
    (howner : scope.module = owner)
    (hr : Raised (Known past vm) vm.options.defaultSeverity scope.site r) :
    Adds past vm owner r (.report id r)
  /-- An invocation of a function of the module faults. -/
  | invoked {f : Handle} {callee : Function σ} (hf : Known past vm f callee)
    (howner : callee.module = owner) (hr : FaultReport f callee r) :
    Adds past vm owner r (.reportInvoked r)

/-- What an act may do to the queue `q` of the module `owner`, so that it becomes `q'`. -/
inductive Act.Changes (past : List (Step σ)) (vm : Vm σ) (owner : Handle) (act : Act σ) :
    List Report → List Report → Prop
  | keeps (q : List Report) : Changes past vm owner act q q
  /-- A report is added, and drops the oldest one of a full queue. -/
  | adds {r : Report} (h : act.Adds past vm owner r) (q : List Report) :
    Changes past vm owner act q
      ((if q.length = vm.diagnostics.capacity then q.tail else q) ++ [r])
  /-- The latest report is taken through a scope of the module. -/
  | takesLatest {id : ScopeId} {scope : Scope} (hid : vm.scopes.get? id = some scope)
    (howner : scope.module = owner) (hact : act = .within id .takeReport) (q : List Report) :
    Changes past vm owner act q q.dropLast
  /-- All reports are taken through a scope of the module. -/
  | takesAll {id : ScopeId} {scope : Scope} (hid : vm.scopes.get? id = some scope)
    (howner : scope.module = owner) (hact : act = .within id .takeReports) (q : List Report) :
    Changes past vm owner act q []

/-- An allowed act changes the queue of a module in one of the ways there are. -/
theorem Act.Allowed.changes {past : List (Step σ)} {act : Act σ} (ha : act.Allowed past vm)
    (owner : Handle) :
    act.Changes past vm owner (vm.diagnostics.queue owner)
      ((act.perform vm).diagnostics.queue owner) := by
  rw [diagnostics_perform]
  by_cases howner : (act.change vm).owner? = some owner
  · cases act with
    | within id op =>
      obtain ⟨scope, hid⟩ := ha
      simp only [change, hid] at howner ⊢
      rcases op.change_cases vm scope with hc | ⟨r, hr, hc⟩ | ⟨rfl, hc⟩ | ⟨rfl, hc⟩ <;>
        rw [hc] at howner ⊢ <;> cases howner
      · rw [Change.apply, Diagnostics.queue_push_self]
        exact .adds (.heap hid rfl hr) _
      · rw [Change.apply, Diagnostics.queue_pop, if_pos rfl]
        exact .takesLatest hid rfl rfl _
      · rw [Change.apply, Diagnostics.queue_clear, if_pos rfl]
        exact .takesAll hid rfl rfl _
    | report id r =>
      obtain ⟨scope, hid, hr⟩ := ha
      simp only [change, hid] at howner ⊢
      cases howner
      rw [Change.apply, Diagnostics.queue_push_self]
      exact .adds (.raised hid rfl hr) _
    | reportInvoked r =>
      obtain ⟨f, callee, hf, hr⟩ := ha
      have hmodule : callee.module = r.module := by cases hr <;> rfl
      cases howner
      rw [change, Change.apply, Diagnostics.queue_push_self]
      exact .adds (.invoked hf hmodule hr) _
    | _ => cases howner
  · rw [Change.queue_apply_of_ne howner]
    exact .keeps _

/-! ### Operations -/

section Replies

variable (d : Diagnostics)

theorem Vm.alloc_reply (vm : Vm σ) (site : Site) (size : UInt64) :
    (Vm.alloc { vm with diagnostics := d } site size).1 = (vm.alloc site size).1 := by
  have hbudget : Vm.budgetAllows { vm with diagnostics := d } size = vm.budgetAllows size := rfl
  unfold alloc
  rw [hbudget]
  split <;> rfl

theorem Vm.resize_reply (vm : Vm σ) (site : Site) (h : Handle) (size : UInt64) :
    (Vm.resize { vm with diagnostics := d } site h size).1 = (vm.resize site h size).1 := by
  have hblock : Vm.block { vm with diagnostics := d } h = vm.block h := rfl
  have hbudget : ∀ n, Vm.budgetAllows { vm with diagnostics := d } n = vm.budgetAllows n :=
    fun _ => rfl
  unfold resize
  by_cases hnull : h.isNull = true
  · rw [if_pos hnull, if_pos hnull]
    split
    · rfl
    · exact vm.alloc_reply d site size
  · rw [if_neg hnull, if_neg hnull]
    split
    · rfl
    · unfold resizeBlock
      rw [hblock]
      cases vm.block h with
      | error e => rfl
      | ok b =>
        simp only [hbudget]
        split <;> rfl

theorem Vm.write_reply (vm : Vm σ) (h : Handle) (offset : UInt64) (value : Handle) :
    (Vm.keepOnError { vm with diagnostics := d }
      (Vm.write { vm with diagnostics := d } h offset value)).1 =
        (vm.keepOnError (vm.write h offset value)).1 := by
  have hvalue : Vm.value? { vm with diagnostics := d } value = vm.value? value := rfl
  have hcell : Vm.cell { vm with diagnostics := d } h offset = vm.cell h offset := rfl
  have hstore : ∀ v, (Vm.keepOnError { vm with diagnostics := d }
      (Vm.store { vm with diagnostics := d } h offset v)).1 =
        (vm.keepOnError (vm.store h offset v)).1 := by
    intro v
    unfold store
    rw [hcell]
    cases vm.cell h offset with
    | error e => rfl
    | ok bc =>
      dsimp only
      split <;> rfl
  unfold write
  rw [hvalue]
  split
  · rfl
  · exact hstore none
  · exact hstore _

theorem ScopeOp.read_reply (vm : Vm σ) (id : ScopeId) (scope : Scope) (h : Handle)
    (offset : UInt64) :
    ((ScopeOp.read h offset).perform { vm with diagnostics := d } id scope).1 =
      ((ScopeOp.read h offset).perform vm id scope).1 := by
  have hread : Vm.read { vm with diagnostics := d } h offset = vm.read h offset := rfl
  simp only [perform]
  rw [hread]
  rcases vm.read h offset with e | (_ | (_ | s | k)) <;> rfl

end Replies

/-- **Replies.** What an operation replies depends on no queue but that of the module of its
scope. -/
theorem ScopeOp.reply_congr (vm : Vm σ) (id : ScopeId) (scope : Scope) (op : ScopeOp)
    {d : Diagnostics} (hd : d.queue scope.module = vm.diagnostics.queue scope.module) :
    (op.perform { vm with diagnostics := d } id scope).1 = (op.perform vm id scope).1 := by
  cases op with
  | latestReport => exact congrArg List.getLast? hd
  | takeReport => exact congrArg List.getLast? hd
  | takeReports => exact hd
  | mint s => rfl
  | alloc size => exact vm.alloc_reply d scope.site size
  | resize block size => exact vm.resize_reply d scope.site block size
  | read block offset => exact read_reply d vm id scope block offset
  | write block offset value => exact vm.write_reply d block offset value
  | _ => rfl

/-! ### Calls -/

/-- The machine that the body of `callee` leaves, however it comes to an end, if it is entered with
`values` from the machine `vm`. -/
def leftByBody (enter : Enter σ) (function : Handle) (callee : Function σ) (values : List Value)
    (vm : Vm σ) : Vm σ :=
  match callee.body with
  | .script body =>
    (enter (body values) .bare (vm.record (.entered (.script function values)))).vm
  | .native body =>
    (enter (body ⟨vm.scopesOpened⟩ (values.map Argument.ofValue)) (.handed ⟨vm.scopesOpened⟩)
      ((vm.openScope ⟨callee.module, function⟩).2.record
        (.entered (.native function (values.map Argument.ofValue))))).vm

/-- What comes after a part of a run and leaves a queue alone leaves it as the part did. -/
theorem Outcome.queue_bind {o : Outcome σ α} {next : α → Vm σ → Outcome σ β}
    (hnext : ∀ a vm, (next a vm).vm.diagnostics.queue owner = vm.diagnostics.queue owner) :
    (o.bind next).vm.diagnostics.queue owner = o.vm.diagnostics.queue owner := by
  cases o with
  | finished a vm => exact hnext a vm
  | halted why vm => rfl

theorem queue_enterBody (enter : Enter σ) (function : Handle) (callee : Function σ)
    (values : List Value) (vm : Vm σ) (owner : Handle) :
    (enterBody enter function callee values vm).vm.diagnostics.queue owner =
      (leftByBody enter function callee values vm).diagnostics.queue owner := by
  unfold enterBody leftByBody
  cases callee.body with
  | script body =>
    refine Outcome.queue_bind fun answer left => ?_
    unfold completeScript
    split <;> rfl
  | native body =>
    refine Outcome.queue_bind fun answer left => ?_
    unfold completeNative
    split <;> exact congrArg (Diagnostics.queue · owner) (left.quiet_closeScope _).diagnostics

theorem Vm.queue_push_of_ne (vm : Vm σ) {module : Handle} (hne : module ≠ owner) (r : Report) :
    (vm.push module r).diagnostics.queue owner = vm.diagnostics.queue owner :=
  Diagnostics.queue_push_of_ne _ hne.symm r

theorem queue_deliver {scope : Scope} (hne : scope.module ≠ owner) (id : ScopeId)
    (function : Handle) (callee : Function σ) (shape : Shape) (completion : Completion)
    (vm : Vm σ) :
    (deliver id scope function callee shape completion vm).2.diagnostics.queue owner =
      vm.diagnostics.queue owner := by
  unfold deliver
  split
  · exact vm.queue_push_of_ne hne _
  · split
    · exact congrArg (Diagnostics.queue · owner) (vm.quiet_mint id _).diagnostics
    · split
      · rfl
      · exact vm.queue_push_of_ne hne _

/-- A call through a scope of another module leaves a queue as it is, or as the body of the function
leaves it. -/
theorem queue_callFunction (enter : Enter σ) (id : ScopeId) {scope : Scope}
    (hne : scope.module ≠ owner) (function : Handle) (shape : Shape) (args : List Argument)
    (vm : Vm σ) :
    (callFunction enter id scope function shape args vm).vm.diagnostics.queue owner =
        vm.diagnostics.queue owner ∨
      ∃ callee values, vm.object? function = some (.function callee) ∧
        vm.argumentValues args = .ok values ∧
        (callFunction enter id scope function shape args vm).vm.diagnostics.queue owner =
          (leftByBody enter function callee values
            (vm.record (.dispatched callee.name shape values.length))).diagnostics.queue owner := by
  unfold callFunction
  split
  · exact .inl rfl
  · next callee hcallee =>
    split
    · exact .inl rfl
    · next values hvalues =>
      split
      · refine .inr ⟨callee, values, function_eq_ok.mp hcallee, hvalues, ?_⟩
        rw [← queue_enterBody]
        exact Outcome.queue_bind fun completion left =>
          queue_deliver hne id function callee shape completion left
      · exact .inl (Vm.queue_push_of_ne _ hne _)

/-- An invocation of a function of another module leaves a queue as it is, or as the body of the
function leaves it. -/
theorem queue_invokeFunction (enter : Enter σ) (function : Handle) (args : List Value) (vm : Vm σ)
    (hne : ∀ callee, vm.object? function = some (.function callee) → callee.module ≠ owner) :
    (invokeFunction enter function args vm).vm.diagnostics.queue owner =
        vm.diagnostics.queue owner ∨
      ∃ callee, vm.object? function = some (.function callee) ∧
        (invokeFunction enter function args vm).vm.diagnostics.queue owner =
          (leftByBody enter function callee args vm).diagnostics.queue owner := by
  unfold invokeFunction
  split
  · exact .inl rfl
  · next callee hcallee =>
    have hf := function_eq_ok.mp hcallee
    split
    · refine .inr ⟨callee, hf, ?_⟩
      rw [← queue_enterBody]
      refine Outcome.queue_bind fun completion left => ?_
      cases completion with
      | returned value => rfl
      | faulted r => exact left.queue_push_of_ne (hne callee hf) r
    · exact .inl rfl

/-- Loading a library leaves a queue as the loader leaves it, or as it is if the loader does not
run. -/
theorem queue_loadLibrary (enter : Enter σ) (lent : List ScopeId) (name : String)
    (loader : Program σ .loader) (vm : Vm σ) (owner : Handle) :
    (loadLibrary enter lent name loader vm).vm.diagnostics.queue owner =
      if validName name then
        (enter loader (.loading name lent)
          (vm.record (.entered (.loader name)))).vm.diagnostics.queue owner
      else vm.diagnostics.queue owner := by
  unfold loadLibrary
  split
  · exact Outcome.queue_bind fun answer left =>
      congrArg (Diagnostics.queue · owner) (left.quiet_attachLibrary name _ _).diagnostics
  · rfl

/-! ### Interrupts -/

/-- One of the handlers, when it is offered an interrupt, may find the queue `q` and leave `q'`. -/
def Handled (enter : Enter σ) (id : ScopeId) (code : UInt16) (opcode : Opcode)
    (args : List Argument) (owner : Handle) (handlers : List (Handler σ)) (q q' : List Report) :
    Prop :=
  ∃ handler ∈ handlers, ∃ vm : Vm σ, vm.diagnostics.queue owner = q ∧
    (enter (handler id code opcode args) (.handed id) vm).vm.diagnostics.queue owner = q'

theorem queue_settle {scope : Scope} (hne : scope.module ≠ owner) {label : String}
    {answer : HandlerAnswer} {result : Handle} {vm' : Vm σ}
    (hsettle : settle scope label answer vm = some (result, vm')) :
    vm'.diagnostics.queue owner = vm.diagnostics.queue owner := by
  cases answer with
  | handled h =>
    simp only [settle, Option.some.injEq] at hsettle
    split at hsettle <;> cases hsettle
    · rfl
    · exact Vm.queue_push_of_ne _ hne _
  | unhandled => cases hsettle
  | failed reason =>
    cases hsettle
    exact vm.queue_push_of_ne hne _
  | panicked payload =>
    cases hsettle
    exact Vm.queue_push_of_ne _ hne _

theorem queue_offerInterrupt (enter : Enter σ) (id : ScopeId) {scope : Scope}
    (hne : scope.module ≠ owner) (code : UInt16) (opcode : Opcode) (args : List Argument)
    {all : List (Handler σ)} (place : ℕ) (handlers : List (Handler σ))
    (hall : ∀ handler ∈ handlers, handler ∈ all) (vm : Vm σ) :
    Relation.ReflTransGen (Handled enter id code opcode args owner all)
      (vm.diagnostics.queue owner)
      ((offerInterrupt enter id scope code opcode args place handlers vm).vm.diagnostics.queue
        owner) := by
  induction handlers generalizing place vm with
  | nil =>
    rw [offerInterrupt]
    exact (vm.queue_push_of_ne hne _).symm ▸ .refl
  | cons handler others ih =>
    rw [offerInterrupt]
    -- whatever the handler answers, it may leave the queue as it does
    have hentered : ∀ o, enter (handler id code opcode args) (.handed id)
        (vm.record (.entered (.handler place code opcode args))) = o →
        Handled enter id code opcode args owner all (vm.diagnostics.queue owner)
          (o.vm.diagnostics.queue owner) := by
      rintro _ rfl
      exact ⟨handler, hall handler List.mem_cons_self,
        vm.record (.entered (.handler place code opcode args)), rfl, rfl⟩
    cases hanswer : enter (handler id code opcode args) (.handed id)
        (vm.record (.entered (.handler place code opcode args))) with
    | halted why left => exact .single (hentered _ hanswer)
    | finished answer left =>
      rw [Outcome.bind_finished]
      split
      · next h settled hsettle =>
        rw [Outcome.vm, queue_settle hne hsettle]
        exact .single (hentered _ hanswer)
      · exact .head (hentered _ hanswer)
          (ih (place + 1) (fun other hother => hall other (List.mem_cons_of_mem _ hother)) left)

/-- An interrupt that is raised through a scope of another module leaves a queue as the handlers
leave it, one after the other. -/
theorem queue_raiseInterrupt (enter : Enter σ) (id : ScopeId) {scope : Scope}
    (hne : scope.module ≠ owner) (code : UInt16) (opcode : Opcode) (args : List Argument)
    (vm : Vm σ) :
    Relation.ReflTransGen (Handled enter id code opcode args owner vm.handlers)
      (vm.diagnostics.queue owner)
      ((raiseInterrupt enter id scope code opcode args vm).vm.diagnostics.queue owner) :=
  queue_offerInterrupt enter id hne code opcode args 0 vm.handlers (fun _ hmem => hmem)
    (vm.record (.interrupted code opcode args.length))

/-! ### Isolation -/

/-- **Isolation of reports.** Let `owner` be a module. In every history, the queue of the module

* changes at each step as `Act.Changes` says: a report is added by what fails through a scope of the
  module or by an invocation of one of its functions, and reports are taken through a scope of the
  module;
* is at a later moment what it was at an earlier one if no step in between was about it.

What is done through a scope of another module neither changes the queue nor depends on it, whether
it succeeds or fails: an operation leaves the queue as it is, a call leaves it as the body of the
function does, and an interrupt leaves it as the handlers do. The same is true of invocations of
functions of other modules, and of loading a library. -/
theorem diagnostics_isolated {options : Options} {memory : σ} {steps : List (Step σ)}
    (h : Steps (Vm.new options memory) steps vm) (owner : Handle) :
    (∀ past before act later, steps = past ++ ⟨before, act⟩ :: later →
      act.Changes past before owner (before.diagnostics.queue owner)
        ((act.perform before).diagnostics.queue owner)) ∧
    (∀ past later mid, steps = past ++ later → Steps (Vm.new options memory) past mid →
      (∀ s ∈ later, (s.act.change s.before).owner? ≠ some owner) →
      vm.diagnostics.queue owner = mid.diagnostics.queue owner) ∧
    (∀ id (scope : Scope) (op : ScopeOp) (d : Diagnostics),
      d.queue scope.module = vm.diagnostics.queue scope.module →
      (op.perform { vm with diagnostics := d } id scope).1 = (op.perform vm id scope).1) ∧
    (∀ (enter : Enter σ) id (scope : Scope), scope.module ≠ owner →
      (∀ op : ScopeOp, (op.perform vm id scope).2.diagnostics.queue owner =
        vm.diagnostics.queue owner) ∧
      (∀ function shape args,
        (callFunction enter id scope function shape args vm).vm.diagnostics.queue owner =
            vm.diagnostics.queue owner ∨
          ∃ callee values, vm.object? function = some (.function callee) ∧
            vm.argumentValues args = .ok values ∧
            (callFunction enter id scope function shape args vm).vm.diagnostics.queue owner =
              (leftByBody enter function callee values
                (vm.record (.dispatched callee.name shape values.length))).diagnostics.queue
                  owner) ∧
      ∀ code opcode args,
        Relation.ReflTransGen (Handled enter id code opcode args owner vm.handlers)
          (vm.diagnostics.queue owner)
          ((raiseInterrupt enter id scope code opcode args vm).vm.diagnostics.queue owner)) ∧
    (∀ (enter : Enter σ) function args,
      (∀ callee, vm.object? function = some (.function callee) → callee.module ≠ owner) →
      (invokeFunction enter function args vm).vm.diagnostics.queue owner =
          vm.diagnostics.queue owner ∨
        ∃ callee, vm.object? function = some (.function callee) ∧
          (invokeFunction enter function args vm).vm.diagnostics.queue owner =
            (leftByBody enter function callee args vm).diagnostics.queue owner) ∧
    ∀ (enter : Enter σ) lent name loader,
      (loadLibrary enter lent name loader vm).vm.diagnostics.queue owner =
        if validName name then
          (enter loader (.loading name lent)
            (vm.record (.entered (.loader name)))).vm.diagnostics.queue owner
        else vm.diagnostics.queue owner := by
  refine ⟨fun past before act later hsteps => (h.allowed_at hsteps).changes owner, ?_,
    fun id scope op d hd => op.reply_congr vm id scope hd, fun enter id scope hne => ⟨fun op => ?_,
      fun function shape args => queue_callFunction enter id hne function shape args vm,
      fun code opcode args => queue_raiseInterrupt enter id hne code opcode args vm⟩,
    fun enter function args hne => queue_invokeFunction enter function args vm hne,
    fun enter lent name loader => queue_loadLibrary enter lent name loader vm owner⟩
  · rintro past later mid rfl hmid hne
    exact hmid.queue_eq h hne
  · rw [op.diagnostics_perform]
    refine Change.queue_apply_of_ne (fun howner => hne ?_) _
    rcases op.change_cases vm scope with hc | ⟨r, -, hc⟩ | ⟨-, hc⟩ | ⟨-, hc⟩ <;>
      rw [hc] at howner <;> cases howner <;> rfl

/-- A second module comes to the tour. -/
def otherTour : Act Unit := .host (.defineModule "other")

/-- The module of the tour frees what is no longer there. The report goes to its own queue, and not
to that of the second module. -/
theorem diagnostics_isolated_otherTour :
    ∃ past, Steps (.new .default ()) past (otherTour.perform midTour) ∧
      (otherTour.perform midTour).getModule "other" = some (.ofParts 4 1) ∧
      ((ScopeOp.free (.ofParts 2 1)).perform (otherTour.perform midTour) ⟨0⟩
        ⟨.ofParts 0 1, .ofParts 1 1, []⟩).2.diagnostics.queue (.ofParts 4 1) =
          (otherTour.perform midTour).diagnostics.queue (.ofParts 4 1) ∧
      ((ScopeOp.free (.ofParts 2 1)).perform (otherTour.perform midTour) ⟨0⟩
        ⟨.ofParts 0 1, .ofParts 1 1, []⟩).2.diagnostics.pending (.ofParts 0 1) = 1 := by
  obtain ⟨past, hpast⟩ := steps_midTour
  have h := hpast.snoc otherTour trivial
  obtain ⟨-, -, -, hthrough, -⟩ := diagnostics_isolated h (.ofParts 4 1)
  have hne : (⟨.ofParts 0 1, .ofParts 1 1, []⟩ : Scope).module ≠ .ofParts 4 1 := by decide
  exact ⟨_, h, by decide +kernel, (hthrough (run 1) ⟨0⟩ _ hne).1 _, by decide +kernel⟩

end NativeBridge
