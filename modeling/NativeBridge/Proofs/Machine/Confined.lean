import NativeBridge.Proofs.Machine.Call

/-!
# Scopes that a program does not hold

A program mints through the scopes that it holds and closes those that it opened. A scope that it
does not hold is afterwards what it was, its locals included, if it was there before
(`confines_run`). That is so whatever the programs do that are entered on the way, since these are
handed scopes of whoever entered them, or a new one. So the body of a function leaves all scopes as
they were (`BodyRuns.scopes_closed`).

The proof follows the definition of runs, as the one that runs are histories does. What a part of a
run does to a scope is described by `Confined`.
-/

namespace NativeBridge

variable {σ α β : Type} {vm vm' vm'' : Vm σ} {k : ScopeId}

/-! ### Moves -/

/-- The move neither mints through a scope nor closes it. -/
def Move.Avoids (k : ScopeId) : Move σ → Prop
  | mint id _ => id ≠ k
  | closeScope id => id ≠ k
  | _ => True

/-- A move leaves a scope as it is that it avoids, and that is not opened only now. -/
theorem Move.scope_apply {x : Holdings σ} {m : Move σ} (hm : m.Avoids k)
    (hk : k.number < x.scopesOpened) : (m.apply x).scopes.get? k = x.scopes.get? k := by
  cases m with
  | mint id s =>
    simp only [apply, scopes]
    split
    · rw [Dict.get?_set, if_neg (Ne.symm hm)]
    · rfl
  | openScope site =>
    have hne : k ≠ ⟨x.scopesOpened⟩ := fun e => Nat.lt_irrefl _ (e ▸ hk)
    simp only [apply, scopes, Dict.get?_set, if_neg hne]
  | closeScope id => simp only [apply, scopes, Dict.get?_erase, if_neg (Ne.symm hm)]
  | _ => rfl

theorem Holdings.scope_after {x : Holdings σ} {ms : List (Move σ)}
    (hms : ∀ m ∈ ms, m.Avoids k) (hk : k.number < x.scopesOpened) :
    (x.after ms).scopes.get? k = x.scopes.get? k := by
  induction ms generalizing x with
  | nil => rfl
  | cons m ms ih =>
    have hk' := Nat.lt_of_lt_of_le hk (Move.scopesOpened_le_apply x m)
    rw [after_cons, ih (fun m' hm' => hms m' (List.mem_cons_of_mem _ hm')) hk',
      Move.scope_apply (hms m List.mem_cons_self) hk]

/-- The act is not made through a scope and does not close it. -/
def Act.Avoids (k : ScopeId) : Act σ → Prop
  | within id _ => id ≠ k
  | closeScope id => id ≠ k
  | deliver id _ => id ≠ k
  | _ => True

theorem Act.avoids_of_mem {act : Act σ} (ha : act.Avoids k) {m : Move σ} (hm : m ∈ act.moves vm) :
    m.Avoids k := by
  have hcause := causedBy_of_mem hm
  cases m with
  | mint id s =>
    rcases hcause with ⟨op, rfl⟩ | rfl
    · exact ha
    · exact ha
  | closeScope id =>
    obtain rfl : act = .closeScope id := hcause
    exact ha
  | _ => trivial

/-! ### Machines -/

namespace Vm

/-- The scope `k` is what it was. It has its number already, so that no scope that is opened later
takes its name. -/
structure Spares (k : ScopeId) (vm vm' : Vm σ) : Prop where
  numbered : k.number < vm'.scopesOpened
  same : vm'.scopes.get? k = vm.scopes.get? k

namespace Spares

theorem trans (h : vm.Spares k vm') (h' : vm'.Spares k vm'') : vm.Spares k vm'' :=
  ⟨h'.numbered, h'.same.trans h.same⟩

/-- What happens by the moves of an act that avoids the scope spares it. -/
theorem of_moves (act : Act σ) (hk : k.number < vm.scopesOpened) (ha : act.Avoids k)
    (hmoves : vm'.holdings = vm.holdings.after (act.moves vm)) : vm.Spares k vm' := by
  refine ⟨?_, ?_⟩
  · rw [← scopesOpened_holdings, hmoves]
    exact Nat.lt_of_lt_of_le hk (vm.holdings.scopesOpened_le_after _)
  · rw [← scopes_holdings, hmoves]
    exact Holdings.scope_after (fun m hm => Act.avoids_of_mem ha hm) hk

theorem refl (hk : k.number < vm.scopesOpened) : vm.Spares k vm := ⟨hk, rfl⟩

theorem push (h : vm.Spares k vm') (owner : Handle) (r : Report) :
    vm.Spares k (vm'.push owner r) := by
  have hpush := vm'.holdings_push owner r
  refine ⟨?_, ?_⟩
  · rw [← scopesOpened_holdings, hpush]
    exact h.numbered
  · rw [← scopes_holdings, hpush]
    exact h.same

theorem openScope (hk : k.number < vm.scopesOpened) (site : Site) :
    vm.Spares k (vm.openScope site).2 :=
  of_moves (.openScope site) hk trivial rfl

theorem closeScope (hk : k.number < vm.scopesOpened) {id : ScopeId} (hne : id ≠ k) :
    vm.Spares k (vm.closeScope id) :=
  of_moves (.closeScope id) hk hne (vm.holdings_closeScope id)

theorem closeScopes (hk : k.number < vm.scopesOpened) {ids : List ScopeId} (hids : k ∉ ids) :
    vm.Spares k (vm.closeScopes ids) := by
  induction ids generalizing vm with
  | nil => exact .refl hk
  | cons id ids ih =>
    have hclose : vm.Spares k (vm.closeScope id) :=
      closeScope hk fun e => hids (e ▸ List.mem_cons_self)
    exact hclose.trans (ih hclose.numbered fun hmem => hids (List.mem_cons_of_mem _ hmem))

end Spares

end Vm

/-! ### Parts of a run -/

/-- A part of a run that begins with `vm` spares the scope `k`, and its answer, if it ends,
satisfies `post`. -/
structure Confined (k : ScopeId) (vm : Vm σ) (o : Outcome σ α) (post : α → Prop) : Prop where
  spares : vm.Spares k o.vm
  post : ∀ a vm', o = .finished a vm' → post a

namespace Confined

variable {vm₁ : Vm σ} {o : Outcome σ α} {post : α → Prop}

theorem finished {a : α} (h : vm.Spares k vm₁) (hpost : post a) :
    Confined k vm (.finished a vm₁) post := by
  refine ⟨h, fun b vm' he => ?_⟩
  cases he
  exact hpost

theorem halted {why : Halt} (h : vm.Spares k vm₁) :
    Confined k vm (.halted why vm₁ : Outcome σ α) post :=
  ⟨h, fun _ _ he => nomatch he⟩

theorem prepend (h : vm.Spares k vm₁) (hrest : Confined k vm₁ o post) : Confined k vm o post :=
  ⟨h.trans hrest.spares, hrest.post⟩

/-- An event that is recorded first makes no difference. -/
theorem note {e : Event} (h : Confined k (vm.record e) o post) : Confined k vm o post :=
  ⟨⟨h.spares.numbered, h.spares.same⟩, h.post⟩

/-- **Sequencing.** The rest of a run goes on with the answer of a part that ends. -/
theorem bind {next : α → Vm σ → Outcome σ β} {post' : β → Prop} (h : Confined k vm o post)
    (hnext : ∀ a vm', vm.Spares k vm' → post a → Confined k vm' (next a vm') post') :
    Confined k vm (o.bind next) post' := by
  cases o with
  | finished a vm' => exact prepend h.spares (hnext a vm' h.spares (h.post a vm' rfl))
  | halted why vm' => exact halted h.spares

end Confined

namespace Frame

variable {frame : Frame σ} {id : ScopeId}

theorem holds_handed (hne : id ≠ k) : (handed id : Frame σ).holds k = false := by
  simp [handed, holds, held, hne.symm]

/-- A loader holds what the program holds that loads its library. -/
theorem holds_loading (frame : Frame σ) (library : String) (id : ScopeId) :
    (loading library frame.held : Frame σ).holds id = frame.holds id := by
  simp [loading, holds, held]

theorem ne_of_holds (hframe : frame.holds k = false) (hid : frame.holds id = true) : id ≠ k := by
  rintro rfl
  rw [hframe] at hid
  cases hid

theorem holds_of_scope? {scope : Scope} (hs : frame.scope? vm id = some scope) :
    frame.holds id = true := by
  unfold scope? at hs
  split at hs
  · assumption
  · cases hs

theorem holds_of_mem (hid : id ∈ frame.opened) : frame.holds id = true := by
  simp [holds, held, hid]

theorem not_mem_of_holds (hframe : frame.holds k = false) : k ∉ frame.opened := by
  intro hmem
  rw [holds_of_mem hmem] at hframe
  cases hframe

theorem holds_addScope (hframe : frame.holds k = false) (hne : id ≠ k) :
    (frame.addScope id).holds k = false := by
  simp_all [holds, held, addScope, Ne.symm hne]

theorem holds_dropScope (hframe : frame.holds k = false) (id : ScopeId) :
    (frame.dropScope id).holds k = false := by
  simp_all [holds, held, dropScope]

end Frame

/-- Programs spare the scopes that they do not hold. -/
def Confines (enter : Enter σ) : Prop :=
  ∀ {r : Role} (program : Program σ r) (frame : Frame σ) (vm : Vm σ) (k : ScopeId),
    k.number < vm.scopesOpened → frame.holds k = false →
    Confined k vm (enter program frame vm) fun _ => True

section Parts

variable {enter : Enter σ} {id : ScopeId} {scope : Scope}

theorem confined_enterBody (hen : Confines enter) (hk : k.number < vm.scopesOpened)
    (function : Handle) (callee : Function σ) (args : List Value) :
    Confined k vm (enterBody enter function callee args vm) fun _ => True := by
  unfold enterBody
  split
  · next body _ =>
    have hbody := hen (body args) .bare (vm.record (.entered (.script function args))) k hk rfl
    refine hbody.note.bind fun answer vm₁ h₁ _ => ?_
    unfold completeScript
    split
    · exact .finished (.refl h₁.numbered) trivial
    · exact .finished ⟨h₁.numbered, rfl⟩ trivial
  · next body _ =>
    -- the scope of the body is a new one
    have hne : (⟨vm.scopesOpened⟩ : ScopeId) ≠ k := fun e => Nat.lt_irrefl _ (e ▸ hk)
    have hopen : vm.Spares k (vm.openScope ⟨callee.module, function⟩).2 := .openScope hk _
    have hbody := hen (body ⟨vm.scopesOpened⟩ (args.map Argument.ofValue)) (.handed _)
      ((vm.openScope ⟨callee.module, function⟩).2.record
        (.entered (.native function (args.map Argument.ofValue)))) k hopen.numbered
      (Frame.holds_handed hne)
    refine (Confined.prepend hopen hbody.note).bind fun answer vm₁ h₁ _ => ?_
    have hclose : vm₁.Spares k (vm₁.closeScope ⟨vm.scopesOpened⟩) := .closeScope h₁.numbered hne
    unfold completeNative
    split
    · exact .finished hclose trivial
    · exact .finished ⟨hclose.numbered, hclose.same⟩ trivial

theorem spares_deliver (hk : k.number < vm.scopesOpened) (hne : id ≠ k) (scope : Scope)
    (function : Handle) (callee : Function σ) (shape : Shape) (completion : Completion) :
    vm.Spares k (deliver id scope function callee shape completion vm).2 := by
  unfold deliver
  split
  · exact (Vm.Spares.refl hk).push _ _
  · next value =>
    split
    · exact .of_moves (.deliver id (value.getD .null)) hk hne (vm.holdings_mint id _)
    · split
      · exact .refl hk
      · exact (Vm.Spares.refl hk).push _ _

theorem confined_callFunction (hen : Confines enter) (hk : k.number < vm.scopesOpened)
    (hne : id ≠ k) (scope : Scope) (function : Handle) (shape : Shape) (args : List Argument) :
    Confined k vm (callFunction enter id scope function shape args vm) fun _ => True := by
  unfold callFunction
  split
  · exact .finished (.refl hk) trivial
  · next callee _ =>
    split
    · exact .finished (.refl hk) trivial
    · next values _ =>
      have hnoted : vm.Spares k (vm.record (.dispatched callee.name shape values.length)) :=
        ⟨hk, rfl⟩
      split
      · refine (confined_enterBody hen hnoted.numbered function callee values).note.bind
          fun completion vm₁ h₁ _ => ?_
        exact .finished (spares_deliver h₁.numbered hne scope function callee shape completion)
          trivial
      · exact .finished (hnoted.push _ _) trivial

theorem confined_invokeFunction (hen : Confines enter) (hk : k.number < vm.scopesOpened)
    (function : Handle) (args : List Value) :
    Confined k vm (invokeFunction enter function args vm) fun _ => True := by
  unfold invokeFunction
  split
  · exact .finished (.refl hk) trivial
  · next callee _ =>
    split
    · refine (confined_enterBody hen hk function callee args).bind fun completion vm₁ h₁ _ => ?_
      cases completion with
      | returned value => exact .finished (.refl h₁.numbered) trivial
      | faulted r => exact .finished ((Vm.Spares.refl h₁.numbered).push _ _) trivial
    · exact .finished (.refl hk) trivial

theorem spares_settle (hk : k.number < vm.scopesOpened) {label : String} {answer : HandlerAnswer}
    {h : Handle} (hsettle : settle scope label answer vm = some (h, vm')) : vm.Spares k vm' := by
  have hfault : ∀ fault, vm.Spares k ((vm.nativeFaultReport scope.site fault).2.push scope.module
      (vm.nativeFaultReport scope.site fault).1) := by
    intro fault
    have hcounted : vm.Spares k (vm.nativeFaultReport scope.site fault).2 := ⟨hk, rfl⟩
    exact hcounted.push _ _
  cases answer with
  | handled j =>
    simp only [settle, Option.some.injEq] at hsettle
    split at hsettle
    · cases hsettle
      exact .refl hk
    · cases hsettle
      exact hfault _
  | unhandled => cases hsettle
  | failed reason =>
    cases hsettle
    exact (Vm.Spares.refl hk).push _ _
  | panicked payload =>
    cases hsettle
    exact hfault _

theorem confined_offerInterrupt (hen : Confines enter) (hk : k.number < vm.scopesOpened)
    (hne : id ≠ k) (scope : Scope) (code : UInt16) (opcode : Opcode) (args : List Argument)
    (place : ℕ) (handlers : List (Handler σ)) :
    Confined k vm (offerInterrupt enter id scope code opcode args place handlers vm)
      fun _ => True := by
  induction handlers generalizing vm place with
  | nil => exact .finished ((Vm.Spares.refl hk).push _ _) trivial
  | cons handler others ih =>
    have hrun := hen (handler id code opcode args) (.handed id)
      (vm.record (.entered (.handler place code opcode args))) k hk (Frame.holds_handed hne)
    unfold offerInterrupt
    refine hrun.note.bind fun answer vm₁ h₁ _ => ?_
    split
    · next hsettle => exact .finished (spares_settle h₁.numbered hsettle) trivial
    · exact ih h₁.numbered (place + 1)

theorem confined_loadLibrary (hen : Confines enter) (hk : k.number < vm.scopesOpened)
    {frame : Frame σ} (hframe : frame.holds k = false) (name : String)
    (loader : Program σ .loader) :
    Confined k vm (loadLibrary enter frame.held name loader vm) fun _ => True := by
  unfold loadLibrary
  split
  · have hrun := hen loader (.loading name frame.held) (vm.record (.entered (.loader name))) k hk
      ((frame.holds_loading name k).trans hframe)
    refine hrun.note.bind fun answer vm₁ h₁ _ => ?_
    exact .finished
      (.of_moves (.attachLibrary name answer.2.finish answer.2.rejected) h₁.numbered trivial
        (vm₁.holdings_attachLibrary name answer.2.finish answer.2.rejected)) trivial
  · exact .finished (.refl hk) trivial

/-! ### Programs -/

/-- The program opens a scope, if there is a site for it. -/
theorem confined_openAt {frame : Frame σ} (hk : k.number < vm.scopesOpened)
    (hframe : frame.holds k = false) (site : Except BridgeError Site)
    {o : Except BridgeError ScopeId → Frame σ → Vm σ → Outcome σ α} {post : α → Prop}
    (h : ∀ result frame vm', k.number < vm'.scopesOpened → frame.holds k = false →
      Confined k vm' (o result frame vm') post) :
    Confined k vm
      (o (openAt frame vm site).1 (openAt frame vm site).2.1 (openAt frame vm site).2.2) post := by
  cases site with
  | error e => exact h _ _ _ hk hframe
  | ok s =>
    have hne : (⟨vm.scopesOpened⟩ : ScopeId) ≠ k := fun e => Nat.lt_irrefl _ (e ▸ hk)
    have hopen : vm.Spares k (vm.openScope s).2 := .openScope hk s
    exact .prepend hopen (h _ _ _ hopen.numbered (Frame.holds_addScope hframe hne))

/-- A program spares a scope that it does not hold, and does not come to hold it. -/
theorem confined_eval (hen : Confines enter) {r : Role} (program : Program σ r) {frame : Frame σ}
    (hk : k.number < vm.scopesOpened) (hframe : frame.holds k = false) :
    Confined k vm (program.eval enter frame vm) fun answer => answer.2.holds k = false := by
  -- as for histories, the programs that are entered are given by `hen`
  induction program generalizing frame vm with
  | done answer => exact .finished (.refl hk) hframe
  | within id op next ih =>
    unfold Program.eval
    split
    · exact .halted (.refl hk)
    · next scope hs =>
      have hne := Frame.ne_of_holds hframe (Frame.holds_of_scope? hs)
      have hop : vm.Spares k (op.perform vm id scope).2 :=
        .of_moves (.within id op) hk hne (op.holdings_perform vm id scope)
      exact .prepend hop (ih _ hop.numbered hframe)
  | host op next ih =>
    have hop : vm.Spares k (op.perform vm).2 :=
      .of_moves (.host op) hk trivial (op.holdings_perform vm)
    exact .prepend hop (ih _ hop.numbered hframe)
  | call id function shape args next ih =>
    unfold Program.eval
    split
    · exact .halted (.refl hk)
    · next scope hs =>
      have hne := Frame.ne_of_holds hframe (Frame.holds_of_scope? hs)
      exact (confined_callFunction hen hk hne scope function shape args).bind
        fun b vm' h _ => ih b h.numbered hframe
  | interrupt id code opcode args next ih =>
    unfold Program.eval
    split
    · exact .halted (.refl hk)
    · next scope hs =>
      have hne := Frame.ne_of_holds hframe (Frame.holds_of_scope? hs)
      have hnoted : k.number < (vm.record (.interrupted code opcode args.length)).scopesOpened := hk
      have hoffer := confined_offerInterrupt hen hnoted hne scope code opcode args 0 vm.handlers
      exact hoffer.note.bind fun b vm' h _ => ih b h.numbered hframe
  | invoke function args next ih =>
    exact (confined_invokeFunction hen hk function args).bind
      fun b vm' h _ => ih b h.numbered hframe
  | openFunction function next ih =>
    exact confined_openAt (o := fun result frame vm => (next result).eval enter frame vm) hk hframe
      _ fun result frame vm' hk' hframe' => ih result hk' hframe'
  | openModule module next ih =>
    exact confined_openAt (o := fun result frame vm => (next result).eval enter frame vm) hk hframe
      _ fun result frame vm' hk' hframe' => ih result hk' hframe'
  | close id next ih =>
    unfold Program.eval
    split
    · next hid =>
      have hne := Frame.ne_of_holds hframe (Frame.holds_of_mem hid)
      have hclose : vm.Spares k (vm.closeScope id) := .closeScope hk hne
      exact .prepend hclose (ih hclose.numbered (Frame.holds_dropScope hframe id))
    · exact .halted (.refl hk)
  | defineScript module name argc body next _ ih =>
    have hdefine : vm.Spares k (vm.defineScript module name argc body).2 :=
      .of_moves (.defineScript module name argc body) hk trivial
        (vm.holdings_defineScript module name argc body)
    exact .prepend hdefine (ih _ hdefine.numbered hframe)
  | loadLibrary module loader next _ ih =>
    exact (confined_loadLibrary hen hk hframe module loader).bind
      fun b vm' h _ => ih b h.numbered hframe
  | register name argc body next _ ih =>
    have hregister : vm.Spares k (recordRegistration frame.registrar.library name
        (frame.registrar.verdict name) vm) := by
      unfold recordRegistration
      split <;> exact ⟨hk, rfl⟩
    exact .prepend hregister (ih _ hregister.numbered hframe)
  | addHandler handler next _ ih =>
    have hadd : vm.Spares k { vm with handlers := vm.handlers ++ [handler] } := ⟨hk, rfl⟩
    exact .prepend hadd (ih hk hframe)
  | «recall» next ih => exact ih _ hk hframe
  | remember memory next ih =>
    have hremember : vm.Spares k { vm with memory := memory } := ⟨hk, rfl⟩
    exact .prepend hremember (ih hk hframe)

end Parts

/-- **Confinement.** Whatever a program does, and however its run comes to an end, a scope that it
does not hold and that was there before is what it was. -/
theorem confines_run (fuel : ℕ) : Confines (run fuel : Enter σ) := by
  induction fuel with
  | zero => exact fun _ _ _ _ hk _ => .halted (.refl hk)
  | succ fuel ih =>
    intro r program frame vm k hk hframe
    refine (confined_eval ih program hk hframe).bind fun answer vm' h hanswer => ?_
    exact .finished (.closeScopes h.numbered (Frame.not_mem_of_holds hanswer)) trivial

/-! ### Bodies -/

theorem Vm.scope_eq_none_of_le (hvm : vm.ScopesCounted) (hle : vm.scopesOpened ≤ k.number) :
    vm.scopes.get? k = none :=
  Option.map_eq_none_iff.mp (siteOf_of_le hvm hle)

/-- When a body has ended and its scope is closed, all scopes are what they were. -/
theorem BodyRuns.scopes_closed {fuel : ℕ} {function : Handle} {callee : Function σ}
    {values : List Value} {ending : Ending} {after : Vm σ}
    (h : BodyRuns fuel function callee values vm ending after) (hvm : vm.ScopesCounted)
    (hf : vm.object? function = some (.function callee)) (k : ScopeId) :
    (ending.closed ⟨vm.scopesOpened⟩ after).scopes.get? k = vm.scopes.get? k := by
  have hbody := h.enterBody_eq
  have hleft : (ending.leave function callee ⟨vm.scopesOpened⟩ after).scopes.get? k =
      (ending.closed ⟨vm.scopesOpened⟩ after).scopes.get? k := by
    unfold Ending.leave
    split <;> rfl
  rw [← hleft]
  by_cases hk : k.number < vm.scopesOpened
  · have hconfined := confined_enterBody (confines_run fuel) hk function callee values
    rw [hbody] at hconfined
    exact hconfined.spares.same
  · -- a scope that was opened in the meantime is closed again
    have hsame := ((leads_enterBody (enters_run fuel) hvm hf values).post _ _ hbody).1 k
    have hnone := Vm.scope_eq_none_of_le hvm (Nat.not_lt.mp hk)
    rw [hnone]
    refine Option.map_eq_none_iff.mp (hsame.trans ?_)
    exact Vm.siteOf_of_le hvm (Nat.not_lt.mp hk)

end NativeBridge
