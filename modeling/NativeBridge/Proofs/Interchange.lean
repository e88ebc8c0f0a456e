import NativeBridge.Proofs.Contents
import NativeBridge.Proofs.Issuance
import NativeBridge.Proofs.Machine.Minting

/-!
# Script and native functions are interchangeable

Whether the body of a function is a script that returns a value, or native code that returns a
handle to the same value, makes no difference to whoever calls the function (`call_interchange`).
The native body may mint scalars of its own on the way. They are gone when its scope is closed, and
the value, which was looked at before, is minted anew for the caller; so the caller may get another
handle to the scalar, but nothing else of the difference.
-/

namespace NativeBridge

open Handle (Table)

open Handle.Table (Addressable Counted Sound)

variable {σ : Type} {vm vm' vm'' : Vm σ} {f : Handle} {callee : Function σ}

/-! ### Machines that look alike -/

/-- Both machines have the same open scopes, reports and counters, and handles address the same
values. Their tables, their journals and the numbers of scopes opened may differ. -/
structure Vm.Twins (vm vm' : Vm σ) : Prop where
  options : vm'.options = vm.options
  diagnostics : vm'.diagnostics = vm.diagnostics
  usage : vm'.usage = vm.usage
  scope : ∀ id, vm'.scopes.get? id = vm.scopes.get? id
  value : ∀ h, vm'.value? h = vm.value? h

namespace Vm.Twins

theorem refl (vm : Vm σ) : vm.Twins vm := ⟨rfl, rfl, rfl, fun _ => rfl, fun _ => rfl⟩

theorem symm (h : vm.Twins vm') : vm'.Twins vm where
  options := h.options.symm
  diagnostics := h.diagnostics.symm
  usage := h.usage.symm
  scope id := (h.scope id).symm
  value k := (h.value k).symm

theorem trans (h : vm.Twins vm') (h' : vm'.Twins vm'') : vm.Twins vm'' where
  options := h'.options.trans h.options
  diagnostics := h'.diagnostics.trans h.diagnostics
  usage := h'.usage.trans h.usage
  scope id := (h'.scope id).trans (h.scope id)
  value k := (h'.value k).trans (h.value k)

theorem record (h : vm.Twins vm') (e e' : Event) : (vm.record e).Twins (vm'.record e') :=
  ⟨h.options, h.diagnostics, h.usage, h.scope, h.value⟩

theorem record_left (h : vm.Twins vm') (e : Event) : (vm.record e).Twins vm' :=
  ⟨h.options, h.diagnostics, h.usage, h.scope, h.value⟩

theorem argumentValues (h : vm.Twins vm') (args : List Argument) :
    vm'.argumentValues args = vm.argumentValues args := by
  have hvalue : vm'.argumentValue = vm.argumentValue := by
    funext a
    cases a with
    | scalar s => rfl
    | handle k => simp only [Vm.argumentValue, h.value]
  rw [Vm.argumentValues, hvalue, Vm.argumentValues]

end Vm.Twins

/-- What a caller that holds the scope `id` can tell of two machines: the reports, the counters, and
how many scalars its scope has minted. -/
structure Vm.Comparable (id : ScopeId) (vm vm' : Vm σ) : Prop where
  diagnostics : vm'.diagnostics = vm.diagnostics
  usage : vm'.usage = vm.usage
  locals : (vm'.scopes.get? id).map (fun scope => scope.locals.length) =
    (vm.scopes.get? id).map fun scope => scope.locals.length

theorem Vm.Twins.comparable (h : vm.Twins vm') (id : ScopeId) : vm.Comparable id vm' :=
  ⟨h.diagnostics, h.usage, by rw [h.scope]⟩

theorem Vm.Twins.push (h : vm.Twins vm') (id : ScopeId) (owner : Handle) (r : Report) :
    (vm.push owner r).Comparable id (vm'.push owner r) := by
  have husage : ∀ vm : Vm σ, (vm.push owner r).usage = vm.usage := by
    intro vm
    unfold Vm.push
    split <;> split <;> rfl
  have hscopes : ∀ vm : Vm σ, (vm.push owner r).scopes = vm.scopes := by
    intro vm
    rw [← Vm.scopes_holdings, Vm.holdings_push, Vm.scopes_holdings]
  exact ⟨by simp [h.diagnostics], by rw [husage, husage, h.usage],
    by rw [hscopes, hscopes, h.scope]⟩

/-- Two results agree: they are the same and address the same, if they are handles, or they are
handles to equal scalars. -/
inductive Agrees (vm vm' : Vm σ) : Except BridgeError Result → Except BridgeError Result → Prop
  | same {r : Except BridgeError Result}
    (hr : ∀ h, r = .ok (.handle h) → ∃ v, vm.value? h = some v ∧ vm'.value? h = some v) :
    Agrees vm vm' r r
  | minted {h h' : Handle} {s : Scalar} (hh : vm.value? h = some (.scalar s))
    (hh' : vm'.value? h' = some (.scalar s)) : Agrees vm vm' (.ok (.handle h)) (.ok (.handle h'))

theorem Agrees.null (vm vm' : Vm σ) (shape : Shape) :
    Agrees vm vm' (.ok (.default shape)) (.ok (.default shape)) := by
  refine .same fun h hh => ?_
  cases shape with
  | handle =>
    cases hh
    exact ⟨.null, rfl, rfl⟩
  | _ => cases hh

/-! ### Variants of a function -/

namespace Vm

/-- The machine with another body for the function `callee` that `f` addresses. -/
def withBody (vm : Vm σ) (f : Handle) (callee : Function σ) (body : Body σ) : Vm σ :=
  { vm with table := vm.table.set f (.function { callee with body := body }) }

theorem object?_withBody (hf : vm.object? f = some (.function callee))
    (body : Body σ) :
    (vm.withBody f callee body).object? f = some (.function { callee with body := body }) := by
  rw [object?] at hf
  rw [object?, withBody, Table.get?_set, if_pos rfl, hf]
  rfl

theorem twins_withBody (hf : vm.object? f = some (.function callee))
    (body : Body σ) : vm.Twins (vm.withBody f callee body) := by
  refine ⟨rfl, rfl, ?_, fun _ => rfl, fun h => ?_⟩
  · simp [usage, withBody]
  · by_cases hh : h = f
    · rw [hh, value?, value?, object?_withBody hf, hf]
      rfl
    · have hobject : (vm.withBody f callee body).object? h = vm.object? h :=
        (Table.get?_set _ f h _).trans (if_neg hh)
      rw [value?, value?, hobject]

end Vm

/-- Native code that is entered at the machine `vm` returns a handle to a value, or null for
none. -/
def Minting.Returns (m : Minting) (vm : Vm σ) (value : Option Value) : Prop :=
  Vm.value? { vm with table := (m.run vm.table).2 } (m.run vm.table).1 = some (value.getD .null)

theorem Minting.Returns.value_ref {m : Minting} {k : Handle} (h : m.Returns vm (some (.ref k)))
    (hs : vm.table.Sound) (hf : (m.run vm.table).2.Addressable) : vm.value? k = some (.ref k) := by
  rw [Returns, Vm.value?] at h
  split at h
  · cases h
  · obtain ⟨o, ho, hvalue⟩ := Option.map_eq_some_iff.mp h
    obtain ⟨hin, hout⟩ := get?_run hs hf (m.run vm.table).1
    have hget : vm.object? (m.run vm.table).1 = some o := by
      refine (hout fun hmem => ?_).symm.trans ho
      -- what the code minted is a scalar, and scalars are not referred to
      obtain ⟨-, s, hscalar⟩ := hin hmem
      cases hscalar.symm.trans ho
      cases hvalue
    have hk : (m.run vm.table).1 = k := by
      cases o with
      | scalar s => cases hvalue
      | _ => exact Value.ref.inj hvalue
    rw [hk] at hget hvalue
    exact (Vm.value?_of_object? hget).trans (congrArg some hvalue)

/-! ### Entering the two bodies -/

/-- The script body that does nothing and returns a value, or none. -/
def returning (value : Option Value) : Body σ :=
  .script fun _ => .done (r := .script) (Except.ok value)

/-- The native body that mints as `m` says, which may depend on the scope and the arguments. -/
def minting (m : ScopeId → List Argument → Minting) : Body σ :=
  .native fun id args => (m id args).program id

theorem enterBody_returning (fuel : ℕ) (function : Handle) (callee : Function σ)
    (value : Option Value) (values : List Value) (vm : Vm σ) :
    enterBody (run (fuel + 1)) function { callee with body := returning value } values vm =
      .finished (.returned value) (vm.record (.entered (.script function values))) := rfl

theorem NativeAnswer.value_returned {h : Handle} {value : Option Value}
    (hvalue : vm.value? h = some (value.getD .null)) (hnull : value ≠ some .null) (name : String) :
    (NativeAnswer.returned h).value vm name = .ok value := by
  cases value with
  | none => simp [NativeAnswer.value, hvalue]
  | some v => cases v <;> simp_all [NativeAnswer.value]

/-- A program that ends is run to its end, when the scopes that it left open are closed. -/
theorem run_of_eval_eq {fuel : ℕ} {r : Role} {program : Program σ r} {frame : Frame σ}
    {answer : Answer r × Frame σ}
    (heval : program.eval (run fuel) frame vm = .finished answer vm') :
    run (fuel + 1) program frame vm =
      .finished (answer.1, answer.2.registrar) (vm'.closeScopes answer.2.opened) := by
  simp only [run, heval, Outcome.bind_finished]

/-- A native body that mints and returns a handle to a value comes to that value, and leaves the
machine as it found it, as far as one can tell. -/
theorem enterBody_minting (vm : Vm σ) (hs : vm.table.Sound) (hc : vm.table.Counted)
    (hvm : vm.ScopesCounted)
    {m : ScopeId → List Argument → Minting} {values : List Value} {value : Option Value}
    (hreturns : (m ⟨vm.scopesOpened⟩ (values.map Argument.ofValue)).Returns vm value)
    (hnull : value ≠ some .null) (fuel : ℕ) (function : Handle) (callee : Function σ) :
    ∃ vm', enterBody (run (fuel + 1)) function { callee with body := minting m } values vm =
        .finished (.returned value) vm' ∧
      (vm'.table.Addressable → vm.Twins vm' ∧ vm'.table.Sound ∧
        ∀ k, value = some (.ref k) → vm.value? k = some (.ref k)) := by
  let id : ScopeId := ⟨vm.scopesOpened⟩
  let code := m id (values.map Argument.ofValue)
  let start := (vm.openScope ⟨callee.module, function⟩).2.record
    (.entered (.native function (values.map Argument.ofValue)))
  have hstart : start.scopes.get? id = some ⟨callee.module, function, []⟩ := by
    simp [start, Vm.record, Vm.openScope, id]
  have hheld : (Frame.handed id : Frame σ).holds id = true := by
    simp [Frame.holds, Frame.held, Frame.handed]
  obtain ⟨scopes, hscopes, heval⟩ := code.eval_program (run fuel) hheld hstart
  let after : Vm σ := { start with table := (code.run vm.table).2, scopes := scopes }
  have hid : after.scopes.get? id = some ⟨callee.module, function, code.minted vm.table⟩ :=
    (hscopes id).trans (if_pos rfl)
  have hanswer : (NativeAnswer.returned (code.run vm.table).1).value after callee.name =
      .ok value := NativeAnswer.value_returned hreturns hnull callee.name
  refine ⟨after.closeScope id, ?_, fun hf => ?_⟩
  · have hrun := run_of_eval_eq heval
    have hcomplete : completeNative function { callee with body := minting m } id
        (.returned (code.run vm.table).1) after =
          .finished (.returned value) (after.closeScope id) := by
      rw [completeNative, hanswer]
    calc enterBody (run (fuel + 1)) function { callee with body := minting m } values vm
        = (run (fuel + 1) (code.program id) (.handed id) start).bind fun answer vm =>
            completeNative function { callee with body := minting m } id answer.1 vm := rfl
      _ = .finished (.returned value) (after.closeScope id) := by
          rw [hrun]
          exact hcomplete
  · have hclose := Steps.closeScope after id
    have hf' : after.table.Addressable := hclose.addressable hf
    have hs' : after.table.Sound := Minting.sound_run hs hf'
    have hc' : (after.closeScope id).table.Counted := by
      rw [hclose.table_eq] at hf ⊢
      exact Table.counted_replay hs' hf (Minting.counted_run hs hf' hc)
    -- what was minted is gone, and with it the scope
    have htable : after.table = (code.run vm.table).2 := rfl
    have hget : ∀ k, (after.closeScope id).table.get? k = vm.table.get? k :=
      Minting.get?_closeScope hs htable hid rfl hf'
    have hclosed : vm.scopes.get? id = none :=
      Option.map_eq_none_iff.mp (Vm.siteOf_of_le hvm (Nat.le_refl vm.scopesOpened))
    refine ⟨⟨?_, ?_, ?_, fun k => ?_, fun k => ?_⟩, hclose.sound hs' hf, ?_⟩
    · rw [Vm.closeScope_eq]
      rfl
    · rw [Vm.closeScope_eq]
      rfl
    · have hlive : (after.closeScope id).table.live = vm.table.live :=
        Table.live_eq_of_get?_eq hc hc' hget
      rw [Vm.usage, hlive, Vm.closeScope_eq]
      rfl
    · rw [Vm.scopes_closeScope]
      split
      · next hk => rw [hk, hclosed]
      · next hk =>
        refine (hscopes k).trans ((if_neg hk).trans ?_)
        exact (Dict.get?_set vm.scopes id k _).trans (if_neg hk)
    · rw [Vm.value?, Vm.value?, Vm.object?, hget, Vm.object?]
    · rintro k rfl
      exact hreturns.value_ref hs hf'

/-! ### What a caller gets -/

/-- A scalar that is minted is one more thing that is live and one more local of its scope. -/
theorem Vm.Twins.mint (h : vm.Twins vm') {id : ScopeId} {scope : Scope}
    (hid : vm.scopes.get? id = some scope) (s : Scalar) :
    (vm.mint id (.scalar s)).2.Comparable id (vm'.mint id (.scalar s)).2 := by
  have husage : ∀ vm : Vm σ, (vm.mint id (.scalar s)).2.usage =
      { vm.usage with liveHandles := vm.usage.liveHandles + 1 } := by
    intro vm
    have hlive : (vm.mint id (.scalar s)).2.table.live = vm.table.live + 1 := by
      rw [Vm.table_mint_scalar]
      unfold Table.insert
      split <;> rfl
    rw [Vm.usage, hlive, Vm.mint_eq]
    rfl
  have hlocals : ∀ vm : Vm σ, vm.scopes.get? id = some scope →
      ((vm.mint id (.scalar s)).2.scopes.get? id).map (fun scope => scope.locals.length) =
        some (scope.locals.length + 1) := by
    intro vm hid
    simp [Vm.mint, Vm.addLocal, hid]
  refine ⟨?_, by rw [husage, husage, h.usage], ?_⟩
  · rw [Vm.mint_eq, Vm.mint_eq vm]
    exact h.diagnostics
  · rw [hlocals vm hid, hlocals vm' ((h.scope id).trans hid)]

/-- The same value is delivered alike by machines that look alike. -/
theorem deliver_twins (htwins : vm.Twins vm') (hs : vm.table.Sound) (hs' : vm'.table.Sound)
    {id : ScopeId} {scope : Scope} (hid : vm.scopes.get? id = some scope) {value : Option Value}
    (hvalue : ∀ k, value = some (.ref k) → vm.value? k = some (.ref k))
    (function : Handle) (callee : Function σ) (body body' : Body σ) (shape : Shape) :
    let given := deliver id scope function { callee with body := body } shape (.returned value) vm
    let given' :=
      deliver id scope function { callee with body := body' } shape (.returned value) vm'
    given.2.table.Addressable → given'.2.table.Addressable →
      (shape ≠ .handle → given'.1 = given.1) ∧
        Agrees given.2 given'.2 (.ok given.1) (.ok given'.1) ∧ given.2.Comparable id given'.2 := by
  intro given given' hf hf'
  by_cases hshape : shape = .handle
  · subst hshape
    refine ⟨fun hne => absurd rfl hne, ?_⟩
    rcases value with _ | v
    · exact ⟨.null given.2 given'.2 .handle, htwins.comparable id⟩
    · cases v with
      | null => exact ⟨.null given.2 given'.2 .handle, htwins.comparable id⟩
      | ref k =>
        have hk := hvalue k rfl
        refine ⟨.same fun h hh => ?_, htwins.comparable id⟩
        cases hh
        exact ⟨_, hk, (htwins.value k).trans hk⟩
      | scalar s =>
        -- each machine has a handle of its own for the scalar
        have hminted := (Vm.mint_scalar hs hf).2
        have hminted' := (Vm.mint_scalar hs' hf').2
        exact ⟨.minted (Vm.value?_of_object? hminted) (Vm.value?_of_object? hminted'),
          htwins.mint hid s⟩
  · cases hfit : Result.ofValue? value shape with
    | some result =>
      have hgiven : given = (result, vm) := deliver_of_ofValue?_eq_some hshape hfit
      have hgiven' : given' = (result, vm') := deliver_of_ofValue?_eq_some hshape hfit
      rw [hgiven, hgiven']
      refine ⟨fun _ => rfl, .same fun h hh => ?_, htwins.comparable id⟩
      obtain rfl := Except.ok.inj hh
      exact absurd (Result.shape_of_ofValue? hfit).symm hshape
    | none =>
      have hgiven : given = _ := deliver_of_ofValue?_eq_none hshape hfit
      have hgiven' : given' = _ := deliver_of_ofValue?_eq_none hshape hfit
      rw [hgiven, hgiven', htwins.options]
      exact ⟨fun _ => rfl, .null _ _ shape, htwins.push id _ _⟩

/-! ### Interchange -/

/-- Machines that look alike, on which `f` addresses two variants of the function `callee`: on the
one it is a script that returns a value, on the other native code that mints. -/
structure Variants (f : Handle) (callee : Function σ) (value : Option Value)
    (m : ScopeId → List Argument → Minting) (scripted native : Vm σ) : Prop where
  twins : scripted.Twins native
  sound : scripted.table.Sound
  sound_native : native.table.Sound
  counted : native.table.Counted
  scopesCounted : native.ScopesCounted
  callee_scripted :
    scripted.object? f = some (.function { callee with body := returning value })
  callee_native : native.object? f = some (.function { callee with body := minting m })

namespace Variants

variable {scripted native : Vm σ} {value : Option Value} {m : ScopeId → List Argument → Minting}

theorem of_steps {options : Options} {memory : σ} {past : List (Step σ)}
    (h : Steps (Vm.new options memory) past vm) (hf : vm.table.Addressable)
    (hcallee : vm.object? f = some (.function callee)) (value : Option Value)
    (m : ScopeId → List Argument → Minting) :
    Variants f callee value m (vm.withBody f callee (returning value))
      (vm.withBody f callee (minting m)) := by
  have hs := h.sound (Vm.sound_new options memory) hf
  exact
    { twins := (Vm.twins_withBody hcallee _).symm.trans (Vm.twins_withBody hcallee _)
      sound := Table.sound_set hs _ _
      sound_native := Table.sound_set hs _ _
      counted := Table.counted_set _ _ (h.census hf).counted
      scopesCounted := h.scopesCounted (Vm.scopesCounted_new options memory)
      callee_scripted := Vm.object?_withBody hcallee _
      callee_native := Vm.object?_withBody hcallee _ }

/-- Calls of the two variants. -/
theorem callFunction (h : Variants f callee value m scripted native) (hnull : value ≠ some .null)
    (fuel : ℕ) {id : ScopeId} {scope : Scope} (hid : scripted.scopes.get? id = some scope)
    {args : List Argument}
    (hreturns : ∀ values, native.argumentValues args = .ok values →
      values.length = callee.argc.toNat →
      (m ⟨native.scopesOpened⟩ (values.map Argument.ofValue)).Returns native value)
    (shape : Shape) :
    let call := NativeBridge.callFunction (run (fuel + 1)) id scope f shape args scripted
    let call' := NativeBridge.callFunction (run (fuel + 1)) id scope f shape args native
    call.vm.table.Addressable → call'.vm.table.Addressable →
      ∃ r r', call = .finished r call.vm ∧ call' = .finished r' call'.vm ∧
        (shape ≠ .handle → r' = r) ∧ Agrees call.vm call'.vm r r' ∧
        call.vm.Comparable id call'.vm := by
  have hargs := h.twins.argumentValues args
  cases hvalues : native.argumentValues args with
  | error e =>
    rw [callFunction_of_error h.callee_scripted (hargs ▸ hvalues),
      callFunction_of_error h.callee_native hvalues]
    exact fun _ _ => ⟨_, _, rfl, rfl, fun _ => rfl, .same fun _ hh => (nomatch hh),
      h.twins.comparable id⟩
  | ok values =>
    have hvalues' := hargs ▸ hvalues
    by_cases hargc : values.length = callee.argc.toNat
    · rw [callFunction_of_eq h.callee_scripted hvalues' hargc,
        callFunction_of_eq h.callee_native hvalues hargc]
      obtain ⟨left, hentered, hleft⟩ := enterBody_minting
        (native.record (.dispatched callee.name shape values.length)) h.sound_native h.counted
        h.scopesCounted (hreturns values hvalues hargc) hnull fuel f callee
      simp only [enterBody_returning, hentered, Outcome.bind_finished]
      intro hf hf'
      obtain ⟨hbody, hs, hvalue⟩ := hleft (addressable_of_deliver hf')
      have hboth := ((h.twins.record (.dispatched callee.name shape values.length) _).trans
        hbody).record_left (.entered (.script f values))
      obtain ⟨heq, hagrees, hcomparable⟩ := deliver_twins hboth h.sound hs hid
        (fun k hk => (h.twins.value k).symm.trans (hvalue k hk)) f callee (returning value)
        (minting m) shape hf hf'
      exact ⟨_, _, rfl, rfl, fun hne => congrArg Except.ok (heq hne), hagrees, hcomparable⟩
    · rw [callFunction_of_ne h.callee_scripted hvalues' hargc,
        callFunction_of_ne h.callee_native hvalues hargc]
      exact fun _ _ => ⟨_, _, rfl, rfl, fun _ => rfl, .null _ _ shape,
        (h.twins.record _ _).push id _ _⟩

/-- Invocations of the two variants. -/
theorem invokeFunction (h : Variants f callee value m scripted native)
    (hnull : value ≠ some .null) (fuel : ℕ) {values : List Value}
    (hreturns : values.length = callee.argc.toNat →
      (m ⟨native.scopesOpened⟩ (values.map Argument.ofValue)).Returns native value) :
    let call := NativeBridge.invokeFunction (run (fuel + 1)) f values scripted
    let call' := NativeBridge.invokeFunction (run (fuel + 1)) f values native
    call'.vm.table.Addressable →
      ∃ r, call = .finished r call.vm ∧ call' = .finished r call'.vm ∧
        call'.vm.diagnostics = call.vm.diagnostics ∧ call'.vm.usage = call.vm.usage := by
  by_cases hargc : values.length = callee.argc.toNat
  · rw [invokeFunction_of_eq h.callee_scripted hargc, invokeFunction_of_eq h.callee_native hargc]
    obtain ⟨left, hentered, hleft⟩ := enterBody_minting native h.sound_native h.counted
      h.scopesCounted (hreturns hargc) hnull fuel f callee
    simp only [enterBody_returning, hentered, Outcome.bind_finished]
    intro hf
    have hboth := h.twins.trans (hleft hf).1
    exact ⟨_, rfl, rfl, hboth.diagnostics, hboth.usage⟩
  · rw [invokeFunction_of_ne h.callee_scripted hargc, invokeFunction_of_ne h.callee_native hargc]
    exact fun _ => ⟨_, rfl, rfl, h.twins.diagnostics, h.twins.usage⟩

end Variants

/-- **Script and native functions are interchangeable.** In a state that a machine reaches, let `f`
address a function, and give it two other bodies: a script that does nothing and returns a value
that is not null, or none, and native code that mints scalars and then returns a handle to that
value, or null. Then

* a call of the one function ends if and only if a call of the other does, whatever the scope, the
  shape and the arguments. The results are the same, unless they are handles: then they are the same
  reference, null for both, or handles to equal scalars. Afterwards the reports are the same, the
  scope of the caller has the same number of locals, and equally many handles are live;
* invocations of the two functions give the same value and leave the same reports, and equally many
  handles are live.

What the native code returns is looked at only if it is entered, that is if the arguments resolve
and are as many as the function takes. -/
theorem call_interchange {options : Options} {memory : σ} {past : List (Step σ)}
    (h : Steps (Vm.new options memory) past vm) (hf : vm.table.Addressable)
    (hcallee : vm.object? f = some (.function callee)) {value : Option Value}
    (hnull : value ≠ some .null) (m : ScopeId → List Argument → Minting) (fuel : ℕ) :
    let scripted := vm.withBody f callee (returning value)
    let native := vm.withBody f callee (minting m)
    (∀ id scope shape args, vm.scopes.get? id = some scope →
      (∀ values, vm.argumentValues args = .ok values → values.length = callee.argc.toNat →
        (m ⟨vm.scopesOpened⟩ (values.map Argument.ofValue)).Returns native value) →
      let call := callFunction (run (fuel + 1)) id scope f shape args scripted
      let call' := callFunction (run (fuel + 1)) id scope f shape args native
      call.vm.table.Addressable → call'.vm.table.Addressable →
      ∃ r r', call = .finished r call.vm ∧ call' = .finished r' call'.vm ∧
        (shape ≠ .handle → r' = r) ∧ Agrees call.vm call'.vm r r' ∧
        call.vm.Comparable id call'.vm) ∧
    ∀ values, (values.length = callee.argc.toNat →
        (m ⟨vm.scopesOpened⟩ (values.map Argument.ofValue)).Returns native value) →
      let call := invokeFunction (run (fuel + 1)) f values scripted
      let call' := invokeFunction (run (fuel + 1)) f values native
      call'.vm.table.Addressable →
      ∃ r, call = .finished r call.vm ∧ call' = .finished r call'.vm ∧
        call'.vm.diagnostics = call.vm.diagnostics ∧ call'.vm.usage = call.vm.usage := by
  intro scripted native
  have hvariants : Variants f callee value m scripted native := .of_steps h hf hcallee value m
  refine ⟨fun id scope shape args hid hreturns => ?_, fun values hreturns => ?_⟩
  · have hargs : native.argumentValues args = vm.argumentValues args :=
      (Vm.twins_withBody hcallee _).argumentValues args
    exact hvariants.callFunction hnull fuel hid (hargs ▸ hreturns) shape
  · exact hvariants.invokeFunction hnull fuel hreturns

/-- Native code that mints a text on its way to an integer. -/
def mintSeven : ScopeId → List Argument → Minting :=
  fun _ _ => .mint (.string "seven") fun _ => .mint (.int 7) fun h => .done h

/-- In the midst of the tour, the top-level code might as well be a script that returns seven or
native code that mints it. -/
theorem call_interchange_mintSeven :
    let scripted := midTour.withBody (.ofParts 1 1) (initFunction (.ofParts 0 1))
      (returning (some (.scalar (.int 7))))
    let native := midTour.withBody (.ofParts 1 1) (initFunction (.ofParts 0 1)) (minting mintSeven)
    ∃ scope r r' vm vm',
      callFunction (run 1) ⟨0⟩ scope (.ofParts 1 1) .handle [] scripted = .finished r vm ∧
      callFunction (run 1) ⟨0⟩ scope (.ofParts 1 1) .handle [] native = .finished r' vm' ∧
      Agrees vm vm' r r' ∧ vm.Comparable ⟨0⟩ vm' := by
  obtain ⟨past, hpast⟩ := steps_midTour
  have hnull : (some (.scalar (.int 7)) : Option Value) ≠ some .null := by decide
  have hcalls := (call_interchange hpast addressable_midTour init_midTour hnull mintSeven 0).1
  obtain ⟨r, r', hr, hr', -, hagrees, hcomparable⟩ := hcalls ⟨0⟩ _ .handle [] scope_midTour
    (fun values hvalues _ => by cases hvalues; unfold Minting.Returns; decide +kernel)
    (by unfold Addressable; decide +kernel) (by unfold Addressable; decide +kernel)
  exact ⟨_, r, r', _, _, hr, hr', hagrees, hcomparable⟩

end NativeBridge
