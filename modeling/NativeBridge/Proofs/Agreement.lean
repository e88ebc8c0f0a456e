import NativeBridge.Proofs.Contents
import NativeBridge.Proofs.Issuance
import NativeBridge.Proofs.Machine.Oblivious

/-!
# Invocations and calls

A function can be invoked with values of the machine, or called through a scope with the same values
as arguments. The two enter its body in the same way and differ in what they make of its end: they
hand over the result in different forms, report a fault to different modules, and treat a wrong
number of arguments differently (`invoke_agrees_call`).

They also differ in that a call announces itself in the journal before it enters the body. Blind
code does not see the announcement, and then both may begin with the very same machine; any other
code finds no difference if the invocation begins with the announcement in the journal.
-/

namespace NativeBridge

variable {σ α : Type} {vm : Vm σ}

/-! ### Machines up to the journal -/

/-- The machines differ at most in their journals, and they entered the same code. -/
structure Vm.Matches (vm vm' : Vm σ) : Prop where
  eq : vm' = { vm with journal := vm'.journal }
  entries : vm'.entries = vm.entries

theorem Vm.Matches.refl (vm : Vm σ) : vm.Matches vm := ⟨rfl, rfl⟩

theorem Vm.matches_push_record (vm : Vm σ) {e : Event} (he : e.entry? = none) (owner : Handle)
    (r : Report) :
    { vm with diagnostics := vm.diagnostics.push owner r }.Matches
      ((vm.record e).push owner r) where
  eq := by
    unfold push
    split <;> split <;> rfl
  entries := (entries_push _ _ _).trans (vm.entries_record_of_entry?_eq_none he)

theorem Vm.matches_behind (vm : Vm σ) (pre : Array Event) {e : Event} (he : e.entry? = none) :
    (vm.behind pre).Matches (vm.behind (pre.push e)) where
  eq := rfl
  entries := by simp [entries, behind, he]

/-- The runs come to the same end and leave machines that match. -/
inductive Outcome.Matches : Outcome σ α → Outcome σ α → Prop
  | finished (a : α) {vm vm' : Vm σ} (h : vm.Matches vm') :
    Matches (.finished a vm) (.finished a vm')
  | halted (why : Halt) {vm vm' : Vm σ} (h : vm.Matches vm') :
    Matches (.halted why vm) (.halted why vm')

theorem Outcome.Matches.refl (o : Outcome σ α) : o.Matches o := by
  cases o with
  | finished a vm => exact .finished a (.refl vm)
  | halted why vm => exact .halted why (.refl vm)

theorem Outcome.Matches.entries {o o' : Outcome σ α} (h : o.Matches o') :
    o'.vm.entries = o.vm.entries := by
  cases h with
  | finished _ h => exact h.entries
  | halted _ h => exact h.entries

/-- Runs behind events that differ in one that is no entry. -/
theorem Outcome.Behind.matches {pre : Array Event} {post : α → Prop} {o₁ o₂ o : Outcome σ α}
    {e : Event} (h₁ : o₁.Behind pre post o) (h₂ : o₂.Behind (pre.push e) post o)
    (he : e.entry? = none) : o₁.Matches o₂ := by
  cases h₁ with
  | finished _ _ =>
    cases h₂
    exact .finished _ (Vm.matches_behind _ pre he)
  | halted why _ =>
    cases h₂
    exact .halted why (Vm.matches_behind _ pre he)

/-! ### Bodies -/

/-- A body that begins on machines which differ in one line of the journal that is no entry ends on
machines that match, if no code on them asks for events. -/
theorem enterBody_matches (h : vm.Blind) {function : Handle} {callee : Function σ}
    (hf : vm.object? function = some (.function callee)) {e : Event} (he : e.entry? = none)
    (fuel : ℕ) (values : List Value) :
    (enterBody (run fuel) function callee values vm).Matches
      (enterBody (run fuel) function callee values (vm.record e)) := by
  -- both machines are the one without a journal, behind other events
  let v : Vm σ := { vm with journal := #[] }
  have hleft : v.behind vm.journal = vm := by simp [v, Vm.behind]
  have hright : v.behind (vm.journal.push e) = vm.record e := by simp [v, Vm.behind, Vm.record]
  have hv : v.Blind := h.of_eq rfl rfl
  have hbehind := fun pre => enterBody_behind (run_behind pre fuel) hv function
    (h.of_object? hf) values
  have hmatch := (hbehind vm.journal).matches (hbehind (vm.journal.push e)) he
  rwa [hleft, hright] at hmatch

/-! ### Arguments and results -/

/-- Values that refer to what is there and no scalar are passed as they are. -/
theorem Vm.argumentValues_ofValue {args : List Value}
    (hargs : ∀ k, Value.ref k ∈ args → ∃ o, vm.object? k = some o ∧ ∀ s, o ≠ .scalar s) :
    vm.argumentValues (args.map Argument.ofValue) = .ok args := by
  refine argumentValues_eq_ok_iff.mpr (List.forall₂_map_left_iff.mpr
    (List.forall₂_same.mpr fun v hv => ?_))
  cases v with
  | null => rfl
  | scalar s => rfl
  | ref k =>
    obtain ⟨o, ho, hns⟩ := hargs k hv
    have hk : vm.value? k = some (.ref k) := by
      rw [value?_of_object? ho]
      cases o with
      | scalar s => exact absurd rfl (hns s)
      | _ => rfl
    simp [Argument.ofValue, argumentValue, hk]

/-- What an invocation and a call through the scope `id` make of the same completion of the body of
`callee`. The invocation goes on with the machine `mid`, the call with the machine `mid'`. -/
inductive Concludes (id : ScopeId) (scope : Scope) (function : Handle) (callee : Function σ)
    (mid mid' : Vm σ) : Completion → Outcome σ (Except BridgeError (Option Value)) →
      Outcome σ (Except BridgeError Result) → Prop
  /-- One report, that goes to the module of the function or to that of the caller. -/
  | faulted {r : Report} (hr : FaultReport function callee r) :
    Concludes id scope function callee mid mid' (.faulted r)
      (.finished (.ok none) (mid.push callee.module r))
      (.finished (.ok (.handle Handle.null)) (mid'.push scope.module r))
  | nothing :
    Concludes id scope function callee mid mid' (.returned none)
      (.finished (.ok none) mid) (.finished (.ok (.handle Handle.null)) mid')
  | null :
    Concludes id scope function callee mid mid' (.returned (some .null))
      (.finished (.ok (some .null)) mid) (.finished (.ok (.handle Handle.null)) mid')
  | reference (k : Handle) :
    Concludes id scope function callee mid mid' (.returned (some (.ref k)))
      (.finished (.ok (some (.ref k))) mid) (.finished (.ok (.handle k)) mid')
  /-- A handle of the caller that was never issued before and addresses the scalar. -/
  | scalar {s : Scalar} {h : Handle} {left : Vm σ}
    (hmint : mid'.mint id (.scalar s) = (h, left))
    (haddresses : left.table.Addressable →
      ¬ mid'.table.Issued h ∧ left.object? h = some (.scalar s)) :
    Concludes id scope function callee mid mid' (.returned (some (.scalar s)))
      (.finished (.ok (some (.scalar s))) mid) (.finished (.ok (.handle h)) left)

theorem concludes_deliver {id : ScopeId} {scope : Scope} {function : Handle}
    {callee : Function σ} {mid mid' : Vm σ} {completion : Completion}
    (hfault : ∀ r, completion = .faulted r → FaultReport function callee r)
    (hs : mid'.table.Addressable → mid'.table.Sound) :
    Concludes id scope function callee mid mid' completion
      (.finished (.ok (yieldValue callee completion mid).1) (yieldValue callee completion mid).2)
      (.finished (.ok (deliver id scope function callee .handle completion mid').1)
        (deliver id scope function callee .handle completion mid').2) := by
  cases completion with
  | faulted r => exact .faulted (hfault r rfl)
  | returned value =>
    cases value with
    | none => exact .nothing
    | some v =>
      cases v with
      | null => exact .null
      | ref k => exact .reference k
      | scalar s =>
        have haddressable : (mid'.mint id (.scalar s)).2.table.Addressable →
            mid'.table.Addressable := Vm.addressable_of_mint
        exact .scalar rfl fun hf => Vm.mint_scalar (hs (haddressable hf)) hf

/-- An invocation and a call that go on from bodies whose ends match. -/
theorem concludes_of_matches {id : ScopeId} {scope : Scope} {function : Handle}
    {callee : Function σ} {o o' : Outcome σ Completion} (h : o.Matches o')
    (hfault : ∀ r after, o' = .finished (.faulted r) after → FaultReport function callee r)
    (hs : o'.vm.table.Addressable → o'.vm.table.Sound) :
    let invoked : Outcome σ (Except BridgeError (Option Value)) := o.bind fun completion mid =>
      .finished (.ok (yieldValue callee completion mid).1) (yieldValue callee completion mid).2
    let called : Outcome σ (Except BridgeError Result) := o'.bind fun completion mid' =>
      .finished (.ok (deliver id scope function callee .handle completion mid').1)
        (deliver id scope function callee .handle completion mid').2
    (∃ why left right, left.Matches right ∧
        invoked = .halted why left ∧ called = .halted why right) ∨
      ∃ completion mid mid', mid.Matches mid' ∧ o = .finished completion mid ∧
        Concludes id scope function callee mid mid' completion invoked called := by
  intro invoked called
  cases h with
  | halted why h => exact .inl ⟨why, _, _, h, rfl, rfl⟩
  | finished completion h =>
    refine .inr ⟨completion, _, _, h, rfl, concludes_deliver (fun r hr => ?_) hs⟩
    subst hr
    exact hfault r _ rfl

theorem entries_yieldValue (callee : Function σ) (completion : Completion) (vm : Vm σ) :
    (yieldValue callee completion vm).2.entries = vm.entries := by
  cases completion with
  | faulted r => exact vm.entries_push _ _
  | returned value => rfl

theorem entries_deliver_handle (id : ScopeId) (scope : Scope) (function : Handle)
    (callee : Function σ) (completion : Completion) (vm : Vm σ) :
    (deliver id scope function callee .handle completion vm).2.entries = vm.entries := by
  cases completion with
  | faulted r => exact vm.entries_push _ _
  | returned value =>
    simp only [deliver]
    rw [Vm.mint_eq]
    rfl

/-! ### Agreement -/

/-- **Two ways into a function.** In every state that a machine reaches, let a function be invoked
with values and called through a scope for a handle, with the same values as arguments, where
references are to modules, functions or blocks that are there.

* If the handle addresses no function, both fail with the same error and change nothing.
* If the number of arguments is wrong, the invocation fails and changes nothing. The call yields the
  null handle and pushes one report to the module of the caller; all else stays as it was.
* Otherwise let the invocation begin with the same machine, if that is blind, or else with the one
  whose journal has the announcement of the call. Then both enter the body first, with the same
  arguments, and what they enter thereafter is the same too. If the body does not end, both halt for
  the same reason and leave the same machine up to the journal. If it ends, it comes to the same
  completion on machines that are the same up to the journal, and from there they conclude as
  `Concludes` says. -/
theorem invoke_agrees_call {options : Options} {memory : σ} {past : List (Step σ)}
    (hpast : Steps (Vm.new options memory) past vm) (id : ScopeId) (scope : Scope) (f : Handle)
    (args : List Value)
    (hargs : ∀ k, Value.ref k ∈ args → ∃ o, vm.object? k = some o ∧ ∀ s, o ≠ .scalar s)
    (fuel : ℕ) :
    let call := callFunction (run fuel) id scope f .handle (args.map Argument.ofValue) vm
    let invoke := invokeFunction (run fuel) f args
    (∀ e, vm.function f = .error e →
      invoke vm = .finished (.error e) vm ∧ call = .finished (.error e) vm) ∧
    ∀ callee, vm.object? f = some (.function callee) →
      (args.length ≠ callee.argc.toNat →
        let report := ⟨scope.module, scope.function, true, .error, none,
          .arity callee.name callee.argc args.length⟩
        invoke vm =
          .finished (.error (.badHandle (.arity callee.name callee.argc args.length))) vm ∧
        ∃ vm', call = .finished (.ok (.handle Handle.null)) vm' ∧
          { vm with diagnostics := vm.diagnostics.push scope.module report }.Matches vm') ∧
      (args.length = callee.argc.toNat → ∀ start,
        start = vm ∧ vm.Blind ∨
          start = vm.record (.dispatched callee.name .handle args.length) →
        (∃ inner, (invoke start).vm.entries = vm.entries ++ callee.entry f args :: inner ∧
          call.vm.entries = vm.entries ++ callee.entry f args :: inner) ∧
        ((∃ why left right, left.Matches right ∧
            invoke start = .halted why left ∧ call = .halted why right) ∨
          ∃ completion mid mid', mid.Matches mid' ∧
            enterBody (run fuel) f callee args start = .finished completion mid ∧
            Concludes id scope f callee mid mid' completion (invoke start) call)) := by
  intro call invoke
  have hvalues := Vm.argumentValues_ofValue hargs
  refine ⟨fun e he => ⟨by simp [invoke, invokeFunction, he], by simp [call, callFunction, he]⟩,
    fun callee hcallee => ⟨fun hargc => ?_, fun hargc start hstart => ?_⟩⟩
  · exact ⟨invokeFunction_of_ne hcallee hargc, _, callFunction_of_ne hcallee hvalues hargc,
      vm.matches_push_record (e := .dispatched callee.name .handle args.length) rfl scope.module _⟩
  · let dispatched := vm.record (.dispatched callee.name .handle args.length)
    have hstarted : start.object? f = some (.function callee) ∧
        (enterBody (run fuel) f callee args start).Matches
          (enterBody (run fuel) f callee args dispatched) := by
      rcases hstart with ⟨rfl, hblind⟩ | rfl
      · exact ⟨hcallee, enterBody_matches hblind hcallee rfl fuel args⟩
      · exact ⟨hcallee, .refl _⟩
    obtain ⟨hstart, hmatches⟩ := hstarted
    have hinvoke : invoke start = _ := invokeFunction_of_eq hstart hargc
    have hcall : call = _ := callFunction_of_eq hcallee hvalues hargc
    have hdispatched : Steps (Vm.new options memory) _ dispatched :=
      hpast.snoc (.note (.dispatched callee.name .handle args.length)) trivial
    have hcounted := hdispatched.scopesCounted (Vm.scopesCounted_new options memory)
    obtain ⟨⟨_, hbody⟩, hpost⟩ := leads_enterBody (enters_run fuel) hcounted hcallee args
    rw [hinvoke, hcall]
    refine ⟨?_, concludes_of_matches hmatches (fun r after h => (hpost _ after h).2 r rfl)
      ((hdispatched.trans hbody).sound (Vm.sound_new options memory))⟩
    obtain ⟨inner, hinner⟩ := entries_enterBody hcounted hcallee fuel args
    rw [Vm.entries_record_of_entry?_eq_none _ rfl] at hinner
    refine ⟨inner, ?_, ?_⟩
    · refine (Outcome.entries_bind (fun completion vm => ?_) _).trans
        (hmatches.entries.symm.trans hinner)
      exact entries_yieldValue callee completion vm
    · refine (Outcome.entries_bind (fun completion vm => ?_) _).trans hinner
      exact entries_deliver_handle id scope f callee completion vm

/-- The host of the tour asks for no events. -/
theorem blind_tour : tour.Blind := by
  refine ⟨by simp, fun module => ?_⟩
  cases module with
  | error e => trivial
  | ok module =>
    intro scope
    cases scope with
    | error e => trivial
    | ok id => simp [Program.Blind]

theorem blind_midTour : midTour.Blind :=
  (run_behind #[] 1 tour .bare (.new .default ()) blind_tour (Registrar.blind_new _)
    (Vm.blind_new _ _)).blind

/-- In the midst of the tour, an invocation of the top-level code and a call of it enter the same
code. With the block as an argument too many, the invocation fails, and the call pushes a report. -/
theorem invoke_agrees_call_midTour :
    let scope : Scope := ⟨.ofParts 0 1, .ofParts 1 1, [.ofParts 2 1, .ofParts 2 2]⟩
    (∃ inner, (invokeFunction (run 1) (.ofParts 1 1) [] midTour).vm.entries =
        midTour.entries ++ .script (.ofParts 1 1) [] :: inner ∧
      (callFunction (run 1) ⟨0⟩ scope (.ofParts 1 1) .handle [] midTour).vm.entries =
        midTour.entries ++ .script (.ofParts 1 1) [] :: inner) ∧
    ∃ e vm', invokeFunction (run 1) (.ofParts 1 1) [.ref tourBlock] midTour =
        .finished (.error e) midTour ∧
      callFunction (run 1) ⟨0⟩ scope (.ofParts 1 1) .handle [.handle tourBlock] midTour =
        .finished (.ok (.handle Handle.null)) vm' ∧
      vm'.diagnostics.pending (.ofParts 0 1) = 1 := by
  intro scope
  obtain ⟨past, hpast⟩ := steps_midTour
  obtain ⟨-, hnone⟩ := invoke_agrees_call hpast ⟨0⟩ scope (.ofParts 1 1) []
    (fun k hk => by cases hk) 1
  have hblock : ∃ b, midTour.object? tourBlock = some (.block b) := by
    have hok : (midTour.block tourBlock).isOk = true := by decide +kernel
    cases hb : midTour.block tourBlock with
    | error e => simp [hb, Except.isOk, Except.toBool] at hok
    | ok b => exact ⟨b, Vm.block_eq_ok.mp hb⟩
  obtain ⟨-, hblock⟩ := invoke_agrees_call hpast ⟨0⟩ scope (.ofParts 1 1) [.ref tourBlock]
    (fun k hk => by
      obtain ⟨b, hb⟩ := hblock
      cases List.mem_singleton.mp hk
      exact ⟨_, hb, fun s hs => by cases hs⟩) 1
  obtain ⟨hentered, -⟩ := (hnone _ init_midTour).2 rfl midTour (.inl ⟨rfl, blind_midTour⟩)
  obtain ⟨hinvoke, vm', hcall, hmatches⟩ := (hblock _ init_midTour).1 (by decide)
  refine ⟨hentered, _, vm', hinvoke, hcall, ?_⟩
  have hempty : midTour.diagnostics.queue (.ofParts 0 1) = [] := by decide +kernel
  rw [hmatches.eq]
  rw [Diagnostics.pending, Diagnostics.queue_push_self, hempty]
  simp

end NativeBridge
