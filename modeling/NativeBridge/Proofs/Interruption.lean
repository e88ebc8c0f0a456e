import NativeBridge.Proofs.Issuance
import NativeBridge.Proofs.Machine.Handlers
import NativeBridge.Proofs.Protection
import NativeBridge.Proofs.Staleness

/-!
# Interrupts

An interrupt is offered to the handlers that are registered when it is raised, one after the other
and each on the machine that the one before it left, until one of them does not leave it to the
others (`interrupt_dispatch`). A handle of this handler is the result if it is null or addresses
something by then. Everything else gives the null handle and one report with the module of the
caller: that nobody handled the interrupt, that the handler failed, or that it faulted.

How an interrupt ends is looked up in the chain of the handlers that declined it (`Declined`).
-/

namespace NativeBridge

variable {σ : Type} {vm vm' after mid : Vm σ} {scope : Scope} {h : Handle} {answer : HandlerAnswer}

/-! ### Settling -/

/-- A fault of a handler occurs and is reported to the module of a scope. -/
def Vm.interruptFault (vm : Vm σ) (scope : Scope) (fault : CallFault) : Vm σ :=
  { vm with faultsOccurred := vm.faultsOccurred + 1 }.push scope.module
    ⟨scope.module, scope.function, true, .critical, some ⟨vm.faultsOccurred, .call fault⟩,
      .nativeFault fault⟩

/-- What the answer of a handler comes to that does not leave the interrupt to the others. The
handler left the machine `after`. -/
inductive Settles (scope : Scope) (label : String) (after : Vm σ) :
    HandlerAnswer → Handle → Vm σ → Prop
  | value {h : Handle} (hvalid : after.Validates h) : Settles scope label after (.handled h) h after
  | stale {h : Handle} (hdead : after.Dead h) :
    Settles scope label after (.handled h) Handle.null
      (after.interruptFault scope (.staleReturn label))
  | failed (reason : String) :
    Settles scope label after (.failed reason) Handle.null
      (after.push scope.module
        ⟨scope.module, scope.function, false, .error, none, .interruptFailed label reason⟩)
  | panicked (payload : Payload) :
    Settles scope label after (.panicked payload) Handle.null
      (after.interruptFault scope (.panic label payload.message))

/-- A handle is null, or it addresses something, or it is dead. -/
theorem Vm.validates_or_dead (vm : Vm σ) (h : Handle) : vm.Validates h ∨ vm.Dead h := by
  cases hnull : h.isNull with
  | true => exact .inl (.inl (Handle.isNull_iff.mp hnull))
  | false =>
    cases ho : vm.object? h with
    | none => exact .inr ⟨hnull, ho⟩
    | some o => exact .inl (.inr (Vm.isLive_of_object? ho))

theorem settle_eq_some_iff {label : String} :
    settle scope label answer after = some (h, vm') ↔ Settles scope label after answer h vm' := by
  constructor
  · intro hsettle
    cases answer with
    | handled k =>
      rcases after.validates_or_dead k with hvalid | hdead
      · simp only [settle, hvalid.isNull_or_isLive, if_true, Option.some.injEq, Prod.mk.injEq]
          at hsettle
        obtain ⟨rfl, rfl⟩ := hsettle
        exact .value hvalid
      · simp only [settle, hdead.nonNull, hdead.isLive_eq, Bool.or_self, Bool.false_eq_true,
          if_false, Option.some.injEq, Prod.mk.injEq] at hsettle
        obtain ⟨rfl, rfl⟩ := hsettle
        exact .stale hdead
    | unhandled => cases hsettle
    | failed reason =>
      cases hsettle
      exact .failed reason
    | panicked payload =>
      cases hsettle
      exact .panicked payload
  · rintro (hvalid | hdead | reason | payload)
    · simp only [settle, hvalid.isNull_or_isLive, if_true]
    · simp only [settle, hdead.nonNull, hdead.isLive_eq, Bool.or_self, Bool.false_eq_true, if_false]
      rfl
    · rfl
    · rfl

theorem settle_eq_none_iff {label : String} :
    settle scope label answer after = none ↔ answer = .unhandled := by
  cases answer <;> simp [settle]

/-! ### Handlers in a row -/

section Chain

variable (fuel : ℕ) (id : ScopeId) (code : UInt16) (opcode : Opcode) (args : List Argument)

/-- The handler at a place is entered once, with the scope and the arguments of the interrupt, and
it leaves the machine `after` with an answer. -/
def HandlerRuns (place : ℕ) (handler : Handler σ) (vm : Vm σ) (answer : HandlerAnswer)
    (after : Vm σ) : Prop :=
  ∃ registrar, run fuel (handler id code opcode args) (.handed id)
    (vm.record (.entered (.handler place code opcode args))) = .finished (answer, registrar) after

/-- Handlers, the first of which has the given place, are entered one after the other, each on the
machine that the one before it left, and all of them leave the interrupt to the others. -/
inductive Declined : ℕ → List (Handler σ) → Vm σ → Vm σ → Prop
  | nil (place : ℕ) (vm : Vm σ) : Declined place [] vm vm
  | cons {place : ℕ} {handler : Handler σ} {others : List (Handler σ)} {vm mid after : Vm σ}
    (hrun : HandlerRuns fuel id code opcode args place handler vm .unhandled mid)
    (hothers : Declined (place + 1) others mid after) :
    Declined place (handler :: others) vm after

/-- An interrupt that is offered to handlers, the first of which has the given place, gives `h` and
leaves the machine `vm'`: all of them decline it, or some decline it and the next one settles it. -/
inductive Dispatched (scope : Scope) (place : ℕ) (handlers : List (Handler σ)) (vm : Vm σ) :
    Handle → Vm σ → Prop
  | unhandled {after : Vm σ}
    (hdeclined : Declined fuel id code opcode args place handlers vm after) :
    Dispatched scope place handlers vm Handle.null
      (after.push scope.module
        ⟨scope.module, scope.function, false, .error, none,
          .interruptUnhandled (interruptLabel code opcode)⟩)
  | settled {declined others : List (Handler σ)} {handler : Handler σ} {mid after vm' : Vm σ}
    {answer : HandlerAnswer} {h : Handle} (hsplit : handlers = declined ++ handler :: others)
    (hdeclined : Declined fuel id code opcode args place declined vm mid)
    (hrun : HandlerRuns fuel id code opcode args (place + declined.length) handler mid answer after)
    (hsettles : Settles scope (interruptLabel code opcode) after answer h vm') :
    Dispatched scope place handlers vm h vm'

/-- Some handlers decline an interrupt and the run of the next one halts. -/
inductive DispatchHalts (place : ℕ) (handlers : List (Handler σ)) (vm : Vm σ) (why : Halt)
    (vm' : Vm σ) : Prop
  | intro {declined others : List (Handler σ)} {handler : Handler σ} {mid : Vm σ}
    (hsplit : handlers = declined ++ handler :: others)
    (hdeclined : Declined fuel id code opcode args place declined vm mid)
    (hrun : run fuel (handler id code opcode args) (.handed id)
      (mid.record (.entered (.handler (place + declined.length) code opcode args))) =
        .halted why vm')

/-- The entries into handlers in the order of their places, each followed by what was entered while
the handler ran. -/
def handlerEntries (place : ℕ) : List (List Entry) → List Entry
  | [] => []
  | inner :: rest => .handler place code opcode args :: inner ++ handlerEntries (place + 1) rest

end Chain

variable {fuel : ℕ} {id : ScopeId} {code : UInt16} {opcode : Opcode} {args : List Argument}
  {place : ℕ} {handler : Handler σ} {handlers others : List (Handler σ)}

theorem Dispatched.cons
    (hrun : HandlerRuns fuel id code opcode args place handler vm .unhandled mid)
    (hrest : Dispatched fuel id code opcode args scope (place + 1) others mid h vm') :
    Dispatched fuel id code opcode args scope place (handler :: others) vm h vm' := by
  cases hrest with
  | unhandled hdeclined => exact .unhandled (.cons hrun hdeclined)
  | settled hsplit hdeclined hlast hsettles =>
    rw [Nat.add_assoc, Nat.add_comm 1] at hlast
    exact .settled (hsplit ▸ (List.cons_append ..).symm) (.cons hrun hdeclined) hlast hsettles

theorem DispatchHalts.cons {why : Halt}
    (hrun : HandlerRuns fuel id code opcode args place handler vm .unhandled mid)
    (hrest : DispatchHalts fuel id code opcode args (place + 1) others mid why vm') :
    DispatchHalts fuel id code opcode args place (handler :: others) vm why vm' := by
  obtain ⟨hsplit, hdeclined, hlast⟩ := hrest
  rw [Nat.add_assoc, Nat.add_comm 1] at hlast
  exact ⟨hsplit ▸ (List.cons_append ..).symm, .cons hrun hdeclined, hlast⟩

/-- An interrupt that is offered ends as the chain of the handlers says, or it halts with one of
them. -/
theorem offerInterrupt_cases (fuel : ℕ) (id : ScopeId) (scope : Scope) (code : UInt16)
    (opcode : Opcode) (args : List Argument) (place : ℕ) (handlers : List (Handler σ)) (vm : Vm σ) :
    match offerInterrupt (run fuel) id scope code opcode args place handlers vm with
    | .finished h vm' => Dispatched fuel id code opcode args scope place handlers vm h vm'
    | .halted why vm' => DispatchHalts fuel id code opcode args place handlers vm why vm' := by
  induction handlers generalizing place vm with
  | nil => exact .unhandled (.nil place vm)
  | cons handler others ih =>
    unfold offerInterrupt
    cases hrun : run fuel (handler id code opcode args) (.handed id)
        (vm.record (.entered (.handler place code opcode args))) with
    | halted why vm' => exact ⟨rfl, .nil place vm, hrun⟩
    | finished answer after =>
      have hruns : HandlerRuns fuel id code opcode args place handler vm answer.1 after :=
        ⟨answer.2, hrun⟩
      rw [Outcome.bind_finished]
      cases hsettle : settle scope (interruptLabel code opcode) answer.1 after with
      | some settled =>
        exact .settled (List.nil_append _).symm (.nil place vm) hruns
          (settle_eq_some_iff.mp hsettle)
      | none =>
        rw [settle_eq_none_iff.mp hsettle] at hruns
        have hrest := ih (place + 1) after
        dsimp only
        split
        · next hoffer =>
          rw [hoffer] at hrest
          exact .cons hruns hrest
        · next hoffer =>
          rw [hoffer] at hrest
          exact .cons hruns hrest

/-- Handlers that decline an interrupt leave it to those behind them. -/
theorem Declined.offerInterrupt_append {declined : List (Handler σ)}
    (h : Declined fuel id code opcode args place declined vm mid) (scope : Scope)
    (others : List (Handler σ)) :
    offerInterrupt (run fuel) id scope code opcode args place (declined ++ others) vm =
      offerInterrupt (run fuel) id scope code opcode args (place + declined.length) others mid := by
  induction h with
  | nil place vm => rfl
  | @cons place handler rest vm mid after hrun _ ih =>
    obtain ⟨registrar, hrun⟩ := hrun
    rw [List.cons_append, offerInterrupt, hrun, Outcome.bind_finished, List.length_cons,
      Nat.add_comm rest.length, ← Nat.add_assoc]
    exact ih

theorem Dispatched.offerInterrupt_eq
    (hdispatched : Dispatched fuel id code opcode args scope place handlers vm h vm') :
    offerInterrupt (run fuel) id scope code opcode args place handlers vm = .finished h vm' := by
  cases hdispatched with
  | unhandled hdeclined =>
    have hall := hdeclined.offerInterrupt_append scope []
    rw [List.append_nil] at hall
    exact hall
  | settled hsplit hdeclined hrun hsettles =>
    obtain ⟨registrar, hrun⟩ := hrun
    rw [hsplit, hdeclined.offerInterrupt_append, offerInterrupt, hrun, Outcome.bind_finished,
      settle_eq_some_iff.mpr hsettles]

theorem DispatchHalts.offerInterrupt_eq {why : Halt}
    (hhalts : DispatchHalts fuel id code opcode args place handlers vm why vm') (scope : Scope) :
    offerInterrupt (run fuel) id scope code opcode args place handlers vm = .halted why vm' := by
  obtain ⟨hsplit, hdeclined, hrun⟩ := hhalts
  rw [hsplit, hdeclined.offerInterrupt_append, offerInterrupt, hrun]
  rfl

theorem offerInterrupt_eq_finished_iff :
    offerInterrupt (run fuel) id scope code opcode args place handlers vm = .finished h vm' ↔
      Dispatched fuel id code opcode args scope place handlers vm h vm' := by
  refine ⟨fun hoffer => ?_, Dispatched.offerInterrupt_eq⟩
  have hcases := offerInterrupt_cases fuel id scope code opcode args place handlers vm
  rwa [hoffer] at hcases

theorem offerInterrupt_eq_halted_iff {why : Halt} :
    offerInterrupt (run fuel) id scope code opcode args place handlers vm = .halted why vm' ↔
      DispatchHalts fuel id code opcode args place handlers vm why vm' := by
  refine ⟨fun hoffer => ?_, fun hhalts => hhalts.offerInterrupt_eq scope⟩
  have hcases := offerInterrupt_cases fuel id scope code opcode args place handlers vm
  rwa [hoffer] at hcases

/-! ### Entries into handlers -/

theorem Settles.entries_eq {label : String} (hsettles : Settles scope label after answer h vm') :
    vm'.entries = after.entries := by
  cases hsettles with
  | value => rfl
  | stale => exact Vm.entries_push _ _ _
  | failed => exact Vm.entries_push _ _ _
  | panicked => exact Vm.entries_push _ _ _

/-- A handler is entered before all that is entered while it runs, whether it ends or not. -/
theorem entries_run_handler (hvm : vm.ScopesCounted) (fuel : ℕ) (id : ScopeId) (code : UInt16)
    (opcode : Opcode) (args : List Argument) (place : ℕ) (handler : Handler σ) :
    let ran := run fuel (handler id code opcode args) (.handed id)
      (vm.record (.entered (.handler place code opcode args)))
    ran.vm.ScopesCounted ∧
      ∃ inner, ran.vm.entries = vm.entries ++ .handler place code opcode args :: inner := by
  intro ran
  have hcounted : (vm.record (.entered (.handler place code opcode args))).ScopesCounted := hvm
  obtain ⟨_, hsteps⟩ : ∃ steps, Steps _ steps ran.vm :=
    steps_run hcounted fuel (handler id code opcode args) rfl (Registrar.clean_new "")
  obtain ⟨inner, hinner⟩ := hsteps.extends.entries
  refine ⟨hsteps.scopesCounted hcounted, inner, ?_⟩
  rw [← hinner, Vm.entries_record, List.append_assoc]
  rfl

/-- Offering an interrupt enters handlers from the first on, each once, and nothing else on its own
account. -/
theorem entries_offerInterrupt (hvm : vm.ScopesCounted) (fuel : ℕ) (id : ScopeId) (scope : Scope)
    (code : UInt16) (opcode : Opcode) (args : List Argument) (place : ℕ)
    (handlers : List (Handler σ)) :
    ∃ inner, inner.length ≤ handlers.length ∧
      (offerInterrupt (run fuel) id scope code opcode args place handlers vm).vm.entries =
        vm.entries ++ handlerEntries code opcode args place inner := by
  induction handlers generalizing place vm with
  | nil => exact ⟨[], Nat.le_refl 0, (Vm.entries_push _ _ _).trans (List.append_nil _).symm⟩
  | cons handler others ih =>
    obtain ⟨hcounted, inner, hinner⟩ :=
      entries_run_handler hvm fuel id code opcode args place handler
    have hone : vm.entries ++ .handler place code opcode args :: inner =
        vm.entries ++ handlerEntries code opcode args place [inner] := by
      simp [handlerEntries]
    unfold offerInterrupt
    cases hrun : run fuel (handler id code opcode args) (.handed id)
        (vm.record (.entered (.handler place code opcode args))) with
    | halted why vm' =>
      rw [hrun] at hinner
      exact ⟨[inner], Nat.le_add_left 1 _, hinner.trans hone⟩
    | finished answer after =>
      rw [hrun] at hinner hcounted
      rw [Outcome.bind_finished]
      cases hsettle : settle scope (interruptLabel code opcode) answer.1 after with
      | some settled =>
        have hsettled := (settle_eq_some_iff.mp hsettle).entries_eq
        exact ⟨[inner], Nat.le_add_left 1 _, hsettled.trans (hinner.trans hone)⟩
      | none =>
        obtain ⟨rest, hlength, hrest⟩ := ih hcounted (place + 1)
        refine ⟨inner :: rest, Nat.succ_le_succ hlength, hrest.trans ?_⟩
        rw [hinner, List.append_assoc]
        rfl

/-- **Dispatch of interrupts.** In a state that a machine reaches, let an interrupt be raised
through an open scope. It is offered to the handlers that are registered by then, in the order of
their registration. Each is entered once, with the scope and the arguments of the interrupt and on
the machine that the handler before it left, until one does not leave the interrupt to the others.

* The dispatch ends exactly as the chain of these handlers says, and it halts exactly if a handler
  does that is reached.
* What is entered on the way are the handlers in order, and what they enter.
* Handlers that are added in the meantime stand behind the others, and are not offered this
  interrupt. -/
theorem interrupt_dispatch {options : Options} {memory : σ} {past : List (Step σ)}
    (hpast : Steps (Vm.new options memory) past vm) (hid : vm.scopes.get? id = some scope)
    (fuel : ℕ) (code : UInt16) (opcode : Opcode) (args : List Argument) :
    let raised := vm.record (.interrupted code opcode args.length)
    let dispatch := raiseInterrupt (run fuel) id scope code opcode args vm
    (∀ h vm', dispatch = .finished h vm' ↔
      Dispatched fuel id code opcode args scope 0 vm.handlers raised h vm') ∧
    (∀ why vm', dispatch = .halted why vm' ↔
      DispatchHalts fuel id code opcode args 0 vm.handlers raised why vm') ∧
    (∃ inner, inner.length ≤ vm.handlers.length ∧
      dispatch.vm.entries = vm.entries ++ handlerEntries code opcode args 0 inner) ∧
    vm.handlers <+: dispatch.vm.handlers := by
  intro raised dispatch
  have hvm := hpast.scopesCounted (Vm.scopesCounted_new options memory)
  have hraised : raised.ScopesCounted := hvm
  refine ⟨fun h vm' => offerInterrupt_eq_finished_iff, fun why vm' => offerInterrupt_eq_halted_iff,
    ?_, ?_⟩
  · obtain ⟨inner, hlength, hinner⟩ :=
      entries_offerInterrupt hraised fuel id scope code opcode args 0 vm.handlers
    refine ⟨inner, hlength, hinner.trans ?_⟩
    rw [vm.entries_record_of_entry?_eq_none rfl]
  · obtain ⟨steps, hsteps⟩ :=
      (leads_raiseInterrupt (enters_run fuel) hvm hid code opcode args).steps
    rw [hsteps.handlers]
    exact List.prefix_append _ _

/-! ### A handler that frees what it returns -/

/-- A handler that frees the block of the tour and returns its handle. -/
def freeingHandler : Handler Unit := fun id _ _ _ =>
  .within id (.free tourBlock) fun _ => .done (r := .handler) (HandlerAnswer.handled tourBlock)

/-- In the midst of the tour, the handler is registered behind one that leaves all to the others. -/
def handlerTour : Vm Unit :=
  midTour.performAll [.addHandler .noop, .addHandler freeingHandler]

theorem steps_handlerTour : ∃ steps, Steps (.new .default ()) steps handlerTour := by
  obtain ⟨past, hpast⟩ := steps_midTour
  have hfirst := hpast.snoc (.addHandler .noop) trivial
  exact ⟨_, hfirst.snoc (.addHandler freeingHandler) trivial⟩

/-- The module of the tour raises an interrupt. The second handler settles it, and the handle that
it returns is dead when it ends: the interrupt yields the null handle and leaves a fault. -/
theorem interrupt_dispatch_handlerTour :
    ∃ vm', Dispatched 1 ⟨0⟩ 7 default []
        ⟨.ofParts 0 1, .ofParts 1 1, [.ofParts 2 1, .ofParts 2 2]⟩ 0 handlerTour.handlers
        (handlerTour.record (.interrupted 7 default 0)) Handle.null vm' ∧
      vm'.diagnostics.pending (.ofParts 0 1) = 1 ∧ vm'.faultsOccurred = 1 := by
  obtain ⟨past, hpast⟩ := steps_handlerTour
  have hid : handlerTour.scopes.get? ⟨0⟩ =
      some ⟨.ofParts 0 1, .ofParts 1 1, [.ofParts 2 1, .ofParts 2 2]⟩ :=
    Vm.scope_of_fields (by decide +kernel)
  obtain ⟨hfinished, -⟩ := interrupt_dispatch hpast hid 1 7 default []
  have hnull : (raiseInterrupt (run 1) ⟨0⟩
      ⟨.ofParts 0 1, .ofParts 1 1, [.ofParts 2 1, .ofParts 2 2]⟩ 7 default []
      handlerTour).answer? = some Handle.null := by decide +kernel
  exact ⟨_, (hfinished Handle.null _).mp (Outcome.eq_finished hnull), by decide +kernel,
    by decide +kernel⟩

end NativeBridge
