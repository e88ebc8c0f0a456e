import NativeBridge.Proofs.Contents
import NativeBridge.Proofs.Identity
import NativeBridge.Proofs.Issuance
import NativeBridge.Proofs.Loading
import NativeBridge.Proofs.Machine.Confined
import NativeBridge.Proofs.Ownership

/-!
# Results that are promoted to the caller

A native function returns a handle, and its caller gets one. What the handle addresses is looked at
when the body returns, then the scope of the body is closed, and only then the caller is served
(`result_promotion`): a scalar is minted anew for the caller, since the old handle may have died
with the scope, and a reference is passed on as it is. The handle that the caller gets to a scalar
was never minted before, even if it takes the slot that the old one had.

In the meantime no scope changes except those that were opened for the call and are closed again.
-/

namespace NativeBridge

open Handle.Table (Addressable mintedIn)

variable {σ : Type} {vm vm' after : Vm σ} {id : ScopeId} {scope : Scope} {fuel : ℕ}
  {function : Handle} {callee : Function σ} {args : List Argument} {values : List Value}

/-- The machine `vm'` is `vm` with a new handle `h` to the scalar `s`, one more local of the scope
`id`. No history that leads from `vm₀` to `vm` has minted the handle before. -/
structure Vm.Promotes (vm₀ vm : Vm σ) (id : ScopeId) (s : Scalar) (h : Handle) (vm' : Vm σ) :
    Prop where
  fresh : ∀ steps, Steps vm₀ steps vm → h ∉ mintedIn (fatesOf steps)
  object : vm'.object? h = some (.scalar s)
  others : ∀ k, k ≠ h → vm'.object? k = vm.object? k
  owner : ∀ scope, vm.scopes.get? id = some scope →
    vm'.scopes.get? id = some { scope with locals := scope.locals ++ [h] }
  scopes : ∀ k, k ≠ id → vm'.scopes.get? k = vm.scopes.get? k
  rest : vm' = { vm with table := vm'.table, scopes := vm'.scopes }

/-- Minting a scalar through a scope promotes it. -/
theorem Vm.promotes_mint (options : Options) (memory : σ) (hs : vm.table.Sound) (id : ScopeId)
    (s : Scalar) (hf : (vm.mint id (.scalar s)).2.table.Addressable) :
    Promotes (Vm.new options memory) vm id s (vm.mint id (.scalar s)).1
      (vm.mint id (.scalar s)).2 := by
  obtain ⟨hfresh, hobject⟩ := mint_scalar hs hf
  have hf' : vm.table.Addressable := addressable_of_mint hf
  have htable := vm.table_mint_scalar id s
  have hscopes : (vm.mint id (.scalar s)).2.scopes =
      Move.scopes vm.holdings (.mint id s) :=
    congrArg Holdings.scopes (vm.holdings_mint id (.scalar s))
  refine ⟨fun steps hsteps hmem => ?_, hobject, fun k hk => ?_, fun scope hid => ?_,
    fun k hk => ?_, vm.mint_eq id _⟩
  · exact hfresh (((hsteps.records hf').issued _).mpr hmem)
  · rw [htable] at hf
    rw [object?, htable, Handle.Table.get?_insert hs hf]
    exact if_neg hk
  · rw [hscopes, Move.scopes, scopes_holdings, hid]
    exact (Dict.get?_set _ _ _ _).trans (if_pos rfl)
  · rw [hscopes, Move.scopes, scopes_holdings]
    split
    · exact (Dict.get?_set _ _ _ _).trans (if_neg hk)
    · rfl

/-! ### Calls for a handle -/

theorem BodyRuns.callFunction_eq {shape : Shape} {ending : Ending}
    (h : BodyRuns fuel function callee values
      (vm.record (.dispatched callee.name shape args.length)) ending after)
    (hcallee : vm.object? function = some (.function callee))
    (hvalues : vm.argumentValues args = .ok values) (hargc : args.length = callee.argc.toNat) :
    let given := deliver id scope function callee shape (ending.completion function callee after)
      (ending.leave function callee ⟨vm.scopesOpened⟩ after)
    callFunction (run fuel) id scope function shape args vm = .finished (.ok given.1) given.2 := by
  have hlength := Vm.length_argumentValues hvalues
  rw [callFunction_of_eq hcallee hvalues (hlength.trans hargc), hlength, h.enterBody_eq]
  rfl

/-- A call for a handle, whose body ends without a fault, mints the handle for the caller after the
scope of the body is closed. -/
theorem BodyRuns.callFunction_handle_eq {ending : Ending}
    (h : BodyRuns fuel function callee values
      (vm.record (.dispatched callee.name .handle args.length)) ending after)
    (hcallee : vm.object? function = some (.function callee))
    (hvalues : vm.argumentValues args = .ok values) (hargc : args.length = callee.argc.toNat)
    (hfault : ending.fault? function callee after = none) {v : Value}
    (hv : (ending.value? after).getD .null = v) :
    let minted := (ending.closed ⟨vm.scopesOpened⟩ after).mint id v
    callFunction (run fuel) id scope function .handle args vm =
      .finished (.ok (.handle minted.1)) minted.2 := by
  subst hv
  rw [h.callFunction_eq hcallee hvalues hargc, Ending.completion, Ending.leave, hfault]
  rfl

theorem Ending.table_leave (ending : Ending) (function : Handle) (callee : Function σ)
    (id : ScopeId) (after : Vm σ) :
    (ending.leave function callee id after).table = (ending.closed id after).table := by
  unfold leave
  split <;> rfl

/-- What a native body returned without a fault is null or addresses something. -/
theorem Ending.fault?_returned_eq_none {r : Handle} (hr : after.Validates r) :
    (Ending.native (.returned r)).fault? function callee after = none := by
  simp [fault?, hr.isNull_or_isLive]

/-- **Promotion of results.** In a state that a machine reaches, let a scope call for a handle, and
let a native body be entered that returns the handle `r` and leaves the machine `after`. Let `left`
be the machine when the scope of the body is closed. There all scopes are as they were before the
call, and nothing is live that was minted through a scope that was opened for it. Then

* if `r` is null, the call gives the null handle and leaves the machine `left`;
* if `r` addresses a module, a function or a block when the body returns, the call gives `r`, which
  addresses the same still, and leaves the machine `left`;
* if `r` addresses a scalar when the body returns, the call gives a handle that was never minted
  before, and leaves the machine `left` with this handle to the scalar, the one new local of the
  caller's scope. Again nothing is live that was minted through a scope opened for the call. -/
theorem result_promotion {options : Options} {memory : σ} {past : List (Step σ)}
    (hpast : Steps (Vm.new options memory) past vm) (hid : vm.scopes.get? id = some scope)
    (hcallee : vm.object? function = some (.function callee))
    (hvalues : vm.argumentValues args = .ok values) (hargc : args.length = callee.argc.toNat)
    {r : Handle} (hruns : BodyRuns fuel function callee values
      (vm.record (.dispatched callee.name .handle args.length)) (.native (.returned r)) after)
    (hf : (callFunction (run fuel) id scope function .handle args vm).vm.table.Addressable) :
    let call := callFunction (run fuel) id scope function .handle args vm
    let left := after.closeScope ⟨vm.scopesOpened⟩
    (∀ k, left.scopes.get? k = vm.scopes.get? k) ∧
    Settled (Vm.new options memory) vm left ∧
    (r = Handle.null → call = .finished (.ok (.handle Handle.null)) left) ∧
    (∀ o, after.object? r = some o → (∀ s, o ≠ .scalar s) →
      call = .finished (.ok (.handle r)) left ∧ left.object? r = some o) ∧
    ∀ s, after.object? r = some (.scalar s) → ∃ h vm',
      call = .finished (.ok (.handle h)) vm' ∧
      Vm.Promotes (Vm.new options memory) left id s h vm' ∧
      vm'.scopes.get? id = some { scope with locals := scope.locals ++ [h] } ∧
      Settled (Vm.new options memory) vm vm' := by
  intro call left
  have hvm := hpast.scopesCounted (Vm.scopesCounted_new options memory)
  -- the machine `left` is reached, and the slots that it has are enough
  have hdispatched := Steps.note vm (e := .dispatched callee.name .handle args.length) trivial
  obtain ⟨_, hbody⟩ := hruns.steps hvm hcallee
  have hafter := hdispatched.trans hbody
  have hleft := hafter.trans (Steps.closeScope after ⟨vm.scopesOpened⟩)
  have hfleft : left.table.Addressable := by
    rw [hruns.callFunction_eq hcallee hvalues hargc] at hf
    have hleave := addressable_of_deliver hf
    rwa [Ending.table_leave] at hleave
  have hs := Vm.sound_new options memory
  have hsafter : after.table.Sound :=
    (hpast.trans hafter).sound hs ((Steps.closeScope after _).addressable hfleft)
  have hsleft : left.table.Sound := (hpast.trans hleft).sound hs hfleft
  have hscopes : ∀ k, left.scopes.get? k = vm.scopes.get? k := hruns.scopes_closed hvm hcallee
  have hsame : vm.SameSites left := fun k => congrArg (Option.map Scope.site) (hscopes k)
  have hcall : ∀ {v}, after.Validates r →
      ((Ending.native (.returned r)).value? after).getD .null = v →
      call = .finished (.ok (.handle (left.mint id v).1)) (left.mint id v).2 := fun hr hv =>
    hruns.callFunction_handle_eq hcallee hvalues hargc (Ending.fault?_returned_eq_none hr) hv
  refine ⟨hscopes, settled_of_sameSites hvm ⟨_, hleft⟩ hsame hfleft, ?_, fun o ho hns => ⟨?_, ?_⟩,
    fun s ho => ?_⟩
  · rintro rfl
    exact hcall (v := .null) (.inl rfl) rfl
  · refine hcall (v := .ref r) (.inr (Vm.isLive_of_object? ho)) ?_
    rw [Ending.value?, ho]
    cases o with
    | scalar s => exact absurd rfl (hns s)
    | _ => rfl
  · exact Vm.object?_closeScope hsafter _ ho hns
  · have hminted := hcall (v := .scalar s) (.inr (Vm.isLive_of_object? ho))
      (by rw [Ending.value?, ho]; rfl)
    have hf' : (left.mint id (.scalar s)).2.table.Addressable := by
      have hfcall : call.vm.table.Addressable := hf
      rwa [hminted] at hfcall
    have hpromotes := Vm.promotes_mint options memory hsleft id s hf'
    have hopen : left.scopes.get? id = some scope := (hscopes id).trans hid
    have hdeliver : Act.Allowed [] left (.deliver id (.scalar s)) := ⟨scope, hopen⟩
    have hsame' : vm.SameSites (left.mint id (.scalar s)).2 :=
      hsame.trans (Act.sameSites_perform hdeliver trivial)
    exact ⟨_, _, hminted, hpromotes, hpromotes.owner scope hopen,
      settled_of_sameSites hvm ⟨_, hleft.trans (Steps.single hdeliver)⟩ hsame' hf'⟩

/-! ### A promotion -/

/-- A body that mints an integer and returns it. -/
def giveBody : NativeBody Unit := fun id _ =>
  .within id (.mint (.int 7)) fun (h : Handle) => .done (r := .native) (NativeAnswer.returned h)

/-- The function with this body. -/
def giver : Function Unit := ⟨"give", .ofParts 0 1, 0, .native giveBody⟩

/-- A library with the function. -/
def giverLibrary : FunctionTable (NativeFunction Unit) := ⟨[("give", ⟨0, giveBody⟩)]⟩

/-- In the midst of the tour, the library is loaded. -/
def giverTour : Vm Unit := Act.perform midTour (.attachLibrary "tour" giverLibrary 0)

theorem steps_giverTour : ∃ steps, Steps (.new .default ()) steps giverTour := by
  obtain ⟨past, hpast⟩ := steps_midTour
  exact ⟨_, hpast.snoc (.attachLibrary "tour" giverLibrary 0) ⟨by decide, by decide, by decide⟩⟩

/-- In the midst of the tour, a native function that the module does not have gets a new handle when
a library with it is loaded. -/
theorem object?_attachLibrary_midTour {name : String}
    (hname : midTour.getFunction "tour" name = none) (f : NativeFunction Unit) :
    (Act.perform midTour (.attachLibrary "tour" ⟨[(name, f)]⟩ 0)).object? (.ofParts 4 1) =
      some (.function ⟨name, .ofParts 0 1, f.argc, .native f.body⟩) := by
  obtain ⟨past, hpast⟩ := steps_midTour
  have htour : midTour.getModule "tour" = some (.ofParts 0 1) := by decide +kernel
  have hsize : midTour.table.slots.size = 4 := by decide +kernel
  have hfree : midTour.table.free = [] := by decide +kernel
  obtain ⟨hnew, hslots⟩ := Vm.addFunction_of_free_eq_nil hfree (.ofParts 0 1) name f.argc
    (.native f.body)
  have hadded := Vm.object?_attachLibrary
    (hpast.sound (Vm.sound_new .default ()) addressable_midTour)
    (hpast.registered addressable_midTour) "tour" name f htour hname
    (by rw [Addressable, hslots, hsize]; decide)
  rwa [hnew, hsize] at hadded

theorem object?_giverTour : giverTour.object? (.ofParts 4 1) = some (.function giver) :=
  object?_attachLibrary_midTour (by decide +kernel) ⟨0, giveBody⟩

/-- A native body that is run and returns a handle to a value. -/
theorem BodyRuns.of_returned {body : NativeBody σ} (hbody : callee.body = .native body) {r : Handle}
    {start : Vm σ}
    (hstart : (vm.openScope ⟨callee.module, function⟩).2.record
      (.entered (.native function (values.map Argument.ofValue))) = start)
    (hrun : (run fuel (body ⟨vm.scopesOpened⟩ (values.map Argument.ofValue))
        (.handed ⟨vm.scopesOpened⟩) start).answer?.map
      (fun answer => (answer.1 : NativeAnswer)) = some (.returned r)) :
    BodyRuns fuel function callee values vm (.native (.returned r))
      (run fuel (body ⟨vm.scopesOpened⟩ (values.map Argument.ofValue))
        (.handed ⟨vm.scopesOpened⟩) start).vm := by
  obtain ⟨answer, hanswer, hreturned⟩ := Option.map_eq_some_iff.mp hrun
  subst hstart
  rw [← hreturned]
  exact .native hbody (Outcome.eq_finished hanswer)

/-- The module of the tour calls the function. The integer that the body minted is gone, and the
caller gets a new handle to it, in the same slot. -/
theorem result_promotion_giverTour :
    ∃ vm', callFunction (run 1) ⟨0⟩
        ⟨.ofParts 0 1, .ofParts 1 1, [.ofParts 2 1, .ofParts 2 2]⟩ (.ofParts 4 1) .handle []
        giverTour = .finished (.ok (.handle (.ofParts 5 2))) vm' ∧
      vm'.object? (.ofParts 5 2) = some (.scalar (.int 7)) ∧
      vm'.scopes.get? ⟨0⟩ = some ⟨.ofParts 0 1, .ofParts 1 1,
        [.ofParts 2 1, .ofParts 2 2, .ofParts 5 2]⟩ := by
  obtain ⟨past, hpast⟩ := steps_giverTour
  have hid : giverTour.scopes.get? ⟨0⟩ =
      some ⟨.ofParts 0 1, .ofParts 1 1, [.ofParts 2 1, .ofParts 2 2]⟩ :=
    Vm.scope_of_fields (by decide +kernel)
  have hvalues : giverTour.argumentValues [] = .ok [] := rfl
  have hruns : BodyRuns 1 (.ofParts 4 1) giver []
      (giverTour.record (.dispatched giver.name .handle 0))
      (.native (.returned (.ofParts 5 1))) _ :=
    .of_returned rfl rfl (by decide +kernel)
  obtain ⟨-, -, -, -, hscalar⟩ := result_promotion hpast hid object?_giverTour hvalues rfl hruns
    (by unfold Addressable; decide +kernel)
  obtain ⟨h, vm', hcall, hpromotes, howner, -⟩ := hscalar (.int 7)
    (Vm.object?_of_value? (by decide +kernel))
  have hgiven : (callFunction (run 1) ⟨0⟩
      ⟨.ofParts 0 1, .ofParts 1 1, [.ofParts 2 1, .ofParts 2 2]⟩ (.ofParts 4 1) .handle []
      giverTour).answer? = some (.ok (.handle (.ofParts 5 2))) := by decide +kernel
  rw [hcall] at hgiven
  cases hgiven
  exact ⟨vm', hcall, hpromotes.object, howner⟩

end NativeBridge
