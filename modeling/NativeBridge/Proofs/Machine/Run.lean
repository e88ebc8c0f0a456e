import NativeBridge.Proofs.Machine.Registered
import NativeBridge.Run

/-!
# Runs are histories

**Every run of a program is a history of steps** (`steps_run`), whatever programs it enters and
however deeply they enter each other, and also if it halts. When a run ends, the scopes that were
opened during it are closed again, and those that were open before it are open at their sites
(`sameSites_run`). The same holds of the single calls, invocations, interrupts and loadings of
libraries within a run.

The proof follows the definition of runs. What a part of a run does is described by `Leads`: it
takes the machine through some steps, and what it answers, if it ends, satisfies a postcondition.
The programs that a part enters are known by this description only (`Enters`).
-/

namespace NativeBridge

variable {σ α β : Type}

/-- A part of a run that begins with `vm` takes it through some steps, and its answer, if it ends,
satisfies `post`. -/
structure Leads (vm : Vm σ) (o : Outcome σ α) (post : α → Vm σ → Prop) : Prop where
  steps : ∃ steps, Steps vm steps o.vm
  post : ∀ a vm', o = .finished a vm' → post a vm'

namespace Leads

variable {vm vm₁ : Vm σ} {o : Outcome σ α} {post post' : α → Vm σ → Prop}

theorem finished {steps : List (Step σ)} {a : α} (h : Steps vm steps vm₁) (hpost : post a vm₁) :
    Leads vm (.finished a vm₁) post := by
  refine ⟨⟨steps, h⟩, fun b vm' he => ?_⟩
  cases he
  exact hpost

theorem halted {steps : List (Step σ)} {why : Halt} (h : Steps vm steps vm₁) :
    Leads vm (.halted why vm₁ : Outcome σ α) post :=
  ⟨⟨steps, h⟩, fun _ _ he => nomatch he⟩

theorem imp (h : Leads vm o post) (hpost : ∀ a vm', post a vm' → post' a vm') :
    Leads vm o post' :=
  ⟨h.steps, fun a vm' he => hpost a vm' (h.post a vm' he)⟩

/-- What a part leads to after some steps, the steps and the part lead to together. -/
theorem prepend {steps : List (Step σ)} (hsteps : Steps vm steps vm₁) (h : Leads vm₁ o post) :
    Leads vm o post := by
  obtain ⟨later, hlater⟩ := h.steps
  exact ⟨⟨_, hsteps.trans hlater⟩, h.post⟩

/-- **Sequencing.** The rest of a run goes on with the answer of a part that ends. -/
theorem bind {next : α → Vm σ → Outcome σ β} {post' : β → Vm σ → Prop} (h : Leads vm o post)
    (hnext : ∀ a vm' steps, Steps vm steps vm' → post a vm' → Leads vm (next a vm') post') :
    Leads vm (o.bind next) post' := by
  obtain ⟨steps, hsteps⟩ := h.steps
  cases o with
  | finished a vm' => exact hnext a vm' steps hsteps (h.post a vm' rfl)
  | halted why vm' => exact halted hsteps

end Leads

/-- A function that was there at the beginning of a history is known at its end. -/
theorem Steps.known {vm₀ vm : Vm σ} {steps : List (Step σ)} (h : Steps vm₀ steps vm) {f : Handle}
    {callee : Function σ} (hf : vm₀.object? f = some (.function callee)) :
    Known steps vm f callee := by
  induction h with
  | refl => exact .inl hf
  | snoc act _ _ ih =>
    rcases ih with hnow | ⟨s, hs, hthen⟩
    · exact .inr ⟨_, List.mem_append_right _ (List.mem_singleton.mpr rfl), hnow⟩
    · exact .inr ⟨s, List.mem_append_left _ hs, hthen⟩

/-- The names of the functions registered so far are valid, and no two are the same. -/
def Registrar.Clean {φ : Type} (r : Registrar φ) : Prop :=
  (r.entries.map Prod.fst).Nodup ∧ ∀ n ∈ r.entries.map Prod.fst, validName n = true

theorem Registrar.clean_new {φ : Type} (library : String) : (new library : Registrar φ).Clean :=
  ⟨List.nodup_nil, fun _ hn => nomatch hn⟩

theorem Registrar.Clean.insert {φ : Type} {r : Registrar φ} (hr : r.Clean) (name : String) (f : φ) :
    (r.insert name f).Clean := by
  unfold Registrar.insert
  split
  · next hv =>
    unfold verdict at hv
    split at hv
    · cases hv
    · next hvalid =>
      split at hv
      · cases hv
      · next hnew =>
        have he : (r.entries ++ [(name, f)]).map Prod.fst = r.entries.map Prod.fst ++ [name] := by
          simp
        refine ⟨he ▸ ?_, he ▸ fun n hn => ?_⟩
        · exact List.nodup_append.mpr ⟨hr.1, by simp, fun a ha b hb => by
            rw [List.mem_singleton.mp hb]; exact fun e => hnew ((r.mem_seen name).mpr (e ▸ ha))⟩
        · rcases List.mem_append.mp hn with hn | hn
          · exact hr.2 n hn
          · rw [List.mem_singleton.mp hn]
            simpa using hvalid
  · exact hr

/-- Programs are entered with histories: the scopes are afterwards as they were, and what a
loader registered has proper names. -/
def Enters (enter : Enter σ) : Prop :=
  ∀ {r : Role} (program : Program σ r) (frame : Frame σ) (vm : Vm σ), frame.opened = [] →
    frame.registrar.Clean → vm.ScopesCounted →
    Leads vm (enter program frame vm) fun answer vm' => vm.SameSites vm' ∧ answer.2.Clean

/-! ### Bodies -/

section Parts

variable {enter : Enter σ} {vm : Vm σ}

theorem leads_enterBody (hen : Enters enter) (hvm : vm.ScopesCounted) {function : Handle}
    {callee : Function σ} (hf : vm.object? function = some (.function callee))
    (args : List Value) :
    Leads vm (enterBody enter function callee args vm) fun completion vm' =>
      vm.SameSites vm' ∧ ∀ r, completion = .faulted r → FaultReport function callee r := by
  unfold enterBody
  split
  · next body hbody =>
    have hnote := Steps.note vm (e := .entered (.script function args)) trivial
    refine Leads.bind ((hen (body args) .bare _ rfl (Registrar.clean_new _)
      (hnote.scopesCounted hvm)).prepend hnote) ?_
    rintro answer vm₂ steps hsteps ⟨hsame, -⟩
    unfold completeScript
    split
    · exact .finished hsteps ⟨hsame, fun r hr => nomatch hr⟩
    · next e he =>
      refine .finished (hsteps.snoc (.occur (.script e)) trivial)
        ⟨hsame.trans (vm₂.sameSites_occur (.script e)), fun r hr => ?_⟩
      cases hr
      exact .script _ e
  · next body hbody =>
    have hsite : vm.functionSite function = .ok ⟨callee.module, function⟩ := by
      simp [Vm.functionSite, hf]
    have hopen : Steps vm _ (vm.openScope ⟨callee.module, function⟩).2 :=
      Steps.refl.snoc (.openScope ⟨callee.module, function⟩) (.inl ⟨function, hsite⟩)
    have hnote :=
      hopen.snoc (.note (.entered (.native function (args.map Argument.ofValue)))) trivial
    refine Leads.bind ((hen (body ⟨vm.scopesOpened⟩ (args.map Argument.ofValue)) (.handed _) _ rfl
      (Registrar.clean_new _) (hnote.scopesCounted hvm)).prepend hnote) ?_
    rintro answer vm₂ steps hsteps ⟨hsame, -⟩
    have hclose := hsteps.snoc (.closeScope ⟨vm.scopesOpened⟩) trivial
    -- the scope of the body is a new one, so that the others are as they were
    have hsites : vm.SameSites (vm₂.closeScope ⟨vm.scopesOpened⟩) := by
      intro id
      have hafter := Act.siteOf_closeScope vm₂ ⟨vm.scopesOpened⟩ id
      have hbefore := Act.siteOf_openScope vm ⟨callee.module, function⟩ id
      refine hafter.trans ?_
      split
      · next he => rw [he, Vm.siteOf_of_le hvm (Nat.le_refl _)]
      · next hne =>
        rw [if_neg hne] at hbefore
        exact (hsame id).trans hbefore
    unfold completeNative
    split
    · exact .finished hclose ⟨hsites, fun r hr => nomatch hr⟩
    · next fault he =>
      refine .finished (hclose.snoc (.occur (.call fault)) trivial)
        ⟨hsites.trans (Vm.sameSites_occur _ (.call fault)), fun r hr => ?_⟩
      cases hr
      exact .native _ fault

/-! ### Calls and invocations -/

/-- A report to the module of a scope, raised for the site of the scope. -/
theorem Steps.report {vm₀ : Vm σ} {steps : List (Step σ)} (h : Steps vm₀ steps vm)
    {id : ScopeId} {scope : Scope} (hid : vm.siteOf id = some scope.site) {r : Report}
    (hr : Raised (Known steps vm) vm.options.defaultSeverity scope.site r) :
    ∃ steps', Steps vm₀ steps' (vm.push scope.module r) := by
  obtain ⟨scope', hget, hsite⟩ := Vm.siteOf_eq_some.mp hid
  have hmodule : scope'.module = scope.module := congrArg Site.module hsite
  have hact := h.snoc (.report id r) ⟨scope', hget, hsite ▸ hr⟩
  simp only [Act.perform, hget, hmodule] at hact
  exact ⟨_, hact⟩

theorem steps_deliver {vm₀ : Vm σ} {steps : List (Step σ)} (h : Steps vm₀ steps vm) {id : ScopeId}
    {scope : Scope} (hid : vm.siteOf id = some scope.site) {function : Handle}
    {callee : Function σ} (hf : vm₀.object? function = some (.function callee)) (shape : Shape)
    {completion : Completion}
    (hfault : ∀ r, completion = .faulted r → FaultReport function callee r) :
    (∃ steps', Steps vm₀ steps' (deliver id scope function callee shape completion vm).2) ∧
      vm.SameSites (deliver id scope function callee shape completion vm).2 := by
  unfold deliver
  split
  · next r =>
    exact ⟨h.report hid (.fault (h.known hf) (hfault r rfl)), vm.sameSites_push _ _⟩
  · next value =>
    split
    · obtain ⟨scope', hget, -⟩ := Vm.siteOf_eq_some.mp hid
      have hopen : Act.Allowed steps vm (.deliver id (value.getD .null)) := ⟨scope', hget⟩
      exact ⟨⟨_, h.snoc _ hopen⟩, Act.sameSites_perform hopen trivial⟩
    · split
      · exact ⟨⟨_, h⟩, .refl vm⟩
      · exact ⟨h.report hid (.shape (h.known hf) _ _), vm.sameSites_push _ _⟩

theorem function_eq_ok {function : Handle} {callee : Function σ} :
    vm.function function = .ok callee ↔ vm.object? function = some (.function callee) := by
  unfold Vm.function
  split <;> simp_all

theorem leads_callFunction (hen : Enters enter) (hvm : vm.ScopesCounted) {id : ScopeId}
    {scope : Scope} (hid : vm.scopes.get? id = some scope) (function : Handle) (shape : Shape)
    (args : List Argument) :
    Leads vm (callFunction enter id scope function shape args vm) fun _ vm' =>
      vm.SameSites vm' := by
  have hsite : vm.siteOf id = some scope.site := Vm.siteOf_eq_some.mpr ⟨scope, hid, rfl⟩
  unfold callFunction
  split
  · exact .finished .refl (.refl vm)
  · next callee hcallee =>
    have hf := function_eq_ok.mp hcallee
    split
    · exact .finished .refl (.refl vm)
    · next values hvalues =>
      have hnote := Steps.note vm (e := .dispatched callee.name shape values.length) trivial
      split
      · refine Leads.bind
          ((leads_enterBody hen (hnote.scopesCounted hvm) hf values).prepend hnote) ?_
        rintro completion vm₂ steps hsteps ⟨hsame, hfault⟩
        have hid₂ : vm₂.siteOf id = some scope.site := (hsame id).trans hsite
        obtain ⟨⟨steps', hsteps'⟩, hsame'⟩ := steps_deliver hsteps hid₂ hf shape hfault
        exact .finished hsteps' (hsame.trans hsame')
      · have hsite' : (vm.record (.dispatched callee.name shape values.length)).siteOf id =
            some scope.site := hsite
        obtain ⟨steps', hsteps'⟩ := hnote.report hsite'
          (.arity callee.name callee.argc values.length)
        exact .finished hsteps' (Vm.sameSites_push _ _ _)

theorem leads_invokeFunction (hen : Enters enter) (hvm : vm.ScopesCounted) (function : Handle)
    (args : List Value) :
    Leads vm (invokeFunction enter function args vm) fun _ vm' => vm.SameSites vm' := by
  unfold invokeFunction
  split
  · exact .finished .refl (.refl vm)
  · next callee hcallee =>
    have hf := function_eq_ok.mp hcallee
    split
    · refine Leads.bind (leads_enterBody hen hvm hf args) ?_
      rintro completion vm₂ steps hsteps ⟨hsame, hfault⟩
      cases completion with
      | returned value => exact .finished hsteps hsame
      | faulted r =>
        have hr := hfault r rfl
        have hmodule : r.module = callee.module := by cases hr <;> rfl
        have hact := hsteps.snoc (.reportInvoked r) ⟨function, callee, hsteps.known hf, hr⟩
        simp only [Act.perform, hmodule] at hact
        exact .finished hact (hsame.trans (vm₂.sameSites_push _ _))
    · exact .finished .refl (.refl vm)

/-! ### Interrupts -/

/-- The report of a fault of a handler goes to the module of the scope. -/
theorem steps_settle {vm₀ : Vm σ} {steps : List (Step σ)} (h : Steps vm₀ steps vm) {id : ScopeId}
    {scope : Scope} (hid : vm.siteOf id = some scope.site) {label : String}
    {answer : HandlerAnswer} {result : Handle} {vm' : Vm σ}
    (hsettle : settle scope label answer vm = some (result, vm')) :
    (∃ steps', Steps vm₀ steps' vm') ∧ vm.SameSites vm' := by
  have hfault : ∀ fault : CallFault,
      (∃ steps', Steps vm₀ steps' ((vm.nativeFaultReport scope.site fault).2.push scope.module
        (vm.nativeFaultReport scope.site fault).1)) ∧
      vm.SameSites ((vm.nativeFaultReport scope.site fault).2.push scope.module
        (vm.nativeFaultReport scope.site fault).1) := by
    intro fault
    have hoccur := h.snoc (.occur (.call fault)) trivial
    exact ⟨hoccur.report hid (.interruptFault vm.faultsOccurred fault),
      (vm.sameSites_occur (.call fault)).trans (Vm.sameSites_push _ _ _)⟩
  cases answer with
  | handled k =>
    simp only [settle, Option.some.injEq] at hsettle
    split at hsettle
    · cases hsettle
      exact ⟨⟨_, h⟩, .refl vm⟩
    · cases hsettle
      exact hfault _
  | unhandled => cases hsettle
  | failed reason =>
    cases hsettle
    exact ⟨h.report hid (.interruptFailed label reason), vm.sameSites_push _ _⟩
  | panicked payload =>
    cases hsettle
    exact hfault _

theorem leads_offerInterrupt (hen : Enters enter) (hvm : vm.ScopesCounted) {id : ScopeId}
    {scope : Scope} (hid : vm.siteOf id = some scope.site) (code : UInt16) (opcode : Opcode)
    (args : List Argument) (place : ℕ) (handlers : List (Handler σ)) :
    Leads vm (offerInterrupt enter id scope code opcode args place handlers vm)
      fun _ vm' => vm.SameSites vm' := by
  induction handlers generalizing vm place with
  | nil =>
    obtain ⟨steps, hsteps⟩ := Steps.refl.report hid
      (.interruptUnhandled (interruptLabel code opcode))
    exact .finished hsteps (vm.sameSites_push _ _)
  | cons handler others ih =>
    have hnote := Steps.note vm (e := .entered (.handler place code opcode args)) trivial
    unfold offerInterrupt
    refine Leads.bind ((hen (handler id code opcode args) (.handed id) _ rfl
      (Registrar.clean_new _) (hnote.scopesCounted hvm)).prepend hnote) ?_
    rintro answer vm₂ steps hsteps ⟨hsame, -⟩
    have hid₂ : vm₂.siteOf id = some scope.site := (hsame id).trans hid
    split
    · next h vm₃ hsettle =>
      obtain ⟨⟨steps', hsteps'⟩, hsame'⟩ := steps_settle hsteps hid₂ hsettle
      exact .finished hsteps' (hsame.trans hsame')
    · exact ((ih (hsteps.scopesCounted hvm) hid₂ (place + 1)).prepend hsteps).imp
        fun _ vm' hsame' => hsame.trans hsame'

theorem leads_raiseInterrupt (hen : Enters enter) (hvm : vm.ScopesCounted) {id : ScopeId}
    {scope : Scope} (hid : vm.scopes.get? id = some scope) (code : UInt16) (opcode : Opcode)
    (args : List Argument) :
    Leads vm (raiseInterrupt enter id scope code opcode args vm) fun _ vm' => vm.SameSites vm' := by
  have hnote := Steps.note vm (e := .interrupted code opcode args.length) trivial
  exact (leads_offerInterrupt hen (hnote.scopesCounted hvm)
    (Vm.siteOf_eq_some.mpr ⟨scope, hid, rfl⟩) code opcode args 0 vm.handlers).prepend hnote

/-! ### Libraries -/

theorem leads_loadLibrary (hen : Enters enter) (hvm : vm.ScopesCounted) (lent : List ScopeId)
    (name : String) (loader : Program σ .loader) :
    Leads vm (loadLibrary enter lent name loader vm) fun _ vm' => vm.SameSites vm' := by
  unfold loadLibrary
  split
  · next hname =>
    have hnote := Steps.note vm (e := .entered (.loader name)) trivial
    refine Leads.bind ((hen loader (.loading name lent) _ rfl (Registrar.clean_new _)
      (hnote.scopesCounted hvm)).prepend hnote) ?_
    rintro answer vm₂ steps hsteps ⟨hsame, hclean⟩
    have hattach : Act.Allowed steps vm₂
        (.attachLibrary name answer.2.finish answer.2.rejected) := ⟨hname, hclean.1, hclean.2⟩
    exact .finished (hsteps.snoc _ hattach) (hsame.trans (Act.sameSites_perform hattach trivial))
  · exact .finished .refl (.refl vm)

/-! ### Programs -/

/-- What becomes of the scopes while a program runs: those that it holds at the end it held at the
beginning or opened, those that it held and closed are closed, and all others are as they were. -/
structure Advances (frame : Frame σ) (vm : Vm σ) (frame' : Frame σ) (vm' : Vm σ) : Prop where
  kept : ∀ id ∉ frame.opened, id ∉ frame'.opened → vm'.siteOf id = vm.siteOf id
  closed : ∀ id ∈ frame.opened, id ∉ frame'.opened → vm'.siteOf id = none
  fresh : ∀ id ∈ frame'.opened, id ∈ frame.opened ∨ vm.scopesOpened ≤ id.number
  clean : frame.registrar.Clean → frame'.registrar.Clean
  later : vm.scopesOpened ≤ vm'.scopesOpened

namespace Advances

variable {frame frame₁ frame₂ : Frame σ} {vm₁ vm₂ : Vm σ}

/-- The program goes on in the frame, the scopes being as they were. -/
theorem same (hsame : vm.SameSites vm₁) (hle : vm.scopesOpened ≤ vm₁.scopesOpened) :
    Advances frame vm frame vm₁ where
  kept _ _ _ := hsame _
  closed _ hid hid' := absurd hid hid'
  fresh _ hid := .inl hid
  clean hclean := hclean
  later := hle

theorem trans (hvm : vm.ScopesCounted) (h₁ : Advances frame vm frame₁ vm₁)
    (h₂ : Advances frame₁ vm₁ frame₂ vm₂) : Advances frame vm frame₂ vm₂ where
  kept id hid hid₂ := by
    by_cases hid₁ : id ∈ frame₁.opened
    · have hle := (h₁.fresh id hid₁).resolve_left hid
      rw [h₂.closed id hid₁ hid₂, Vm.siteOf_of_le hvm hle]
    · rw [h₂.kept id hid₁ hid₂, h₁.kept id hid hid₁]
  closed id hid hid₂ := by
    by_cases hid₁ : id ∈ frame₁.opened
    · exact h₂.closed id hid₁ hid₂
    · rw [h₂.kept id hid₁ hid₂, h₁.closed id hid hid₁]
  fresh id hid := by
    rcases h₂.fresh id hid with hid₁ | hle
    · exact h₁.fresh id hid₁
    · exact .inr (Nat.le_trans h₁.later hle)
  clean hclean := h₂.clean (h₁.clean hclean)
  later := Nat.le_trans h₁.later h₂.later

end Advances

/-- A run that leads on from a frame that a program advanced to. -/
theorem Leads.advance {frame frame₁ : Frame σ} {vm₁ : Vm σ} {o : Outcome σ (α × Frame σ)}
    (hvm : vm.ScopesCounted) {steps : List (Step σ)} (hsteps : Steps vm steps vm₁)
    (hadv : Advances frame vm frame₁ vm₁)
    (h : Leads vm₁ o fun answer vm' => Advances frame₁ vm₁ answer.2 vm') :
    Leads vm o fun answer vm' => Advances frame vm answer.2 vm' :=
  (h.prepend hsteps).imp fun _ _ hrest => hadv.trans hvm hrest

/-- A run that begins with a single act that is not about scopes. -/
theorem Leads.act {frame : Frame σ} {o : Outcome σ (α × Frame σ)} (hvm : vm.ScopesCounted)
    {act : Act σ} (ha : act.Allowed [] vm) (hk : act.KeepsSites)
    (h : Leads (act.perform vm) o fun answer vm' => Advances frame (act.perform vm) answer.2 vm') :
    Leads vm o fun answer vm' => Advances frame vm answer.2 vm' :=
  .advance hvm (.single ha)
    (.same (Act.sameSites_perform ha hk) (Steps.single ha).scopesOpened_le) h

/-- A run that begins with a part after which the scopes are as they were. -/
theorem Leads.part {frame : Frame σ} {o : Outcome σ β} {next : β → Vm σ → Outcome σ (α × Frame σ)}
    (hvm : vm.ScopesCounted) (h : Leads vm o fun _ vm' => vm.SameSites vm')
    (hnext : ∀ b vm', vm'.ScopesCounted →
      Leads vm' (next b vm') fun answer vm'' => Advances frame vm' answer.2 vm'') :
    Leads vm (o.bind next) fun answer vm' => Advances frame vm answer.2 vm' :=
  h.bind fun b vm' _ hsteps hsame =>
    .advance hvm hsteps (.same hsame hsteps.scopesOpened_le)
      (hnext b vm' (hsteps.scopesCounted hvm))

theorem Frame.scope?_eq_some {frame : Frame σ} {id : ScopeId} {scope : Scope}
    (hs : frame.scope? vm id = some scope) : vm.scopes.get? id = some scope := by
  unfold scope? at hs
  split at hs
  · exact hs
  · cases hs

/-- The program opens a scope, if there is a site for it. -/
theorem leads_openAt (hvm : vm.ScopesCounted) {frame : Frame σ} {site : Except BridgeError Site}
    (hsite : ∀ s, site = .ok s → Act.Allowed [] vm (.openScope s))
    {o : Except BridgeError ScopeId → Frame σ → Vm σ → Outcome σ (α × Frame σ)}
    (h : ∀ result frame vm', vm'.ScopesCounted →
      Leads vm' (o result frame vm') fun answer vm'' => Advances frame vm' answer.2 vm'') :
    Leads vm (o (openAt frame vm site).1 (openAt frame vm site).2.1 (openAt frame vm site).2.2)
      fun answer vm' => Advances frame vm answer.2 vm' := by
  cases site with
  | error e => exact h _ _ _ hvm
  | ok s =>
    have hopen := Steps.single (hsite s rfl)
    have hopened := Act.siteOf_openScope vm s
    have hadv : Advances frame vm (frame.addScope ⟨vm.scopesOpened⟩) (vm.openScope s).2 := by
      refine ⟨fun id _ hid' => ?_, fun id hid hid' => ?_, fun id hid => ?_, fun hclean => hclean,
        hopen.scopesOpened_le⟩
      · refine (hopened id).trans (if_neg fun e => hid' ?_)
        exact List.mem_append_right _ (List.mem_singleton.mpr e)
      · exact absurd (List.mem_append_left _ hid) hid'
      · rcases List.mem_append.mp hid with hid | hid
        · exact .inl hid
        · exact .inr (by rw [List.mem_singleton.mp hid])
    exact .advance hvm hopen hadv (h _ _ _ (hopen.scopesCounted hvm))

/-- The program closes a scope that it opened. -/
theorem advances_close {frame : Frame σ} (vm : Vm σ) {k : ScopeId} (hk : k ∈ frame.opened) :
    Advances frame vm (frame.dropScope k) (vm.closeScope k) := by
  have hclosed := Act.siteOf_closeScope vm k
  have hclose := Steps.closeScope vm k
  refine ⟨fun id hid _ => ?_, fun id hid hid' => ?_, fun id hid => ?_, fun hclean => hclean,
    hclose.scopesOpened_le⟩
  · exact (hclosed id).trans (if_neg fun e : id = k => hid (e ▸ hk))
  · have he : id = k := by simpa [Frame.dropScope, hid] using hid'
    exact (hclosed id).trans (if_pos he)
  · exact .inl (List.mem_of_mem_filter hid)

/-- The loader registers a function. -/
theorem advances_register (frame : Frame σ) (vm : Vm σ) (name : String) (f : NativeFunction σ) :
    let vm' := recordRegistration frame.registrar.library name (frame.registrar.verdict name) vm
    (∃ steps, Steps vm steps vm') ∧
      Advances frame vm { frame with registrar := frame.registrar.insert name f } vm' := by
  have hadv : ∀ vm' : Vm σ, vm'.holdings = vm.holdings →
      Advances frame vm { frame with registrar := frame.registrar.insert name f } vm' := by
    intro vm' he
    have hsame : vm.SameSites vm' := fun id => by rw [Vm.siteOf, he]; rfl
    exact ⟨fun id _ _ => hsame id, fun id hid hid' => absurd hid hid', fun id hid => .inl hid,
      fun hclean => hclean.insert name f,
      by rw [← vm'.scopesOpened_holdings, he]; exact Nat.le_refl _⟩
  unfold recordRegistration
  split
  · exact ⟨⟨[], .refl⟩, hadv vm rfl⟩
  · exact ⟨⟨_, .note vm trivial⟩, hadv _ rfl⟩
  · exact ⟨⟨_, .note vm trivial⟩, hadv _ rfl⟩

/-- **Programs.** A program that runs in a frame leads through steps and advances its frame. -/
theorem leads_eval (hen : Enters enter) {r : Role} (program : Program σ r) (frame : Frame σ)
    (hvm : vm.ScopesCounted) :
    Leads vm (program.eval enter frame vm) fun answer vm' => Advances frame vm answer.2 vm' := by
  -- the programs that are entered are given by `hen`, so the induction is on this one only
  induction program generalizing frame vm with
  | done answer => exact .finished .refl (.same (.refl vm) (Nat.le_refl _))
  | within id op next ih =>
    unfold Program.eval
    split
    · exact .halted .refl
    · next scope hs =>
      have hid := Frame.scope?_eq_some hs
      have ha : Act.Allowed [] vm (.within id op) := ⟨scope, hid⟩
      have hperform := Act.perform_within hid op
      refine .act hvm ha trivial ?_
      rw [hperform]
      exact ih _ _ (hperform ▸ (Steps.single ha).scopesCounted hvm)
  | host op next ih =>
    have ha : Act.Allowed [] vm (.host op) := trivial
    exact .act hvm ha trivial (ih _ _ ((Steps.single ha).scopesCounted hvm))
  | call id function shape args next ih =>
    unfold Program.eval
    split
    · exact .halted .refl
    · next scope hs =>
      exact .part hvm (leads_callFunction hen hvm (Frame.scope?_eq_some hs) function shape args)
        fun b vm' hvm' => ih b frame hvm'
  | interrupt id code opcode args next ih =>
    unfold Program.eval
    split
    · exact .halted .refl
    · next scope hs =>
      exact .part hvm (leads_raiseInterrupt hen hvm (Frame.scope?_eq_some hs) code opcode args)
        fun b vm' hvm' => ih b frame hvm'
  | invoke function args next ih =>
    exact .part hvm (leads_invokeFunction hen hvm function args)
      fun b vm' hvm' => ih b frame hvm'
  | openFunction function next ih =>
    exact leads_openAt (o := fun result frame vm => (next result).eval enter frame vm) hvm
      (fun s hs => .inl ⟨function, hs⟩) fun result frame vm' hvm' => ih result frame hvm'
  | openModule module next ih =>
    exact leads_openAt (o := fun result frame vm => (next result).eval enter frame vm) hvm
      (fun s hs => .inr ⟨module, hs⟩) fun result frame vm' hvm' => ih result frame hvm'
  | close id next ih =>
    unfold Program.eval
    split
    · next hid =>
      have hclose := Steps.closeScope vm id
      exact .advance hvm hclose (advances_close vm hid)
        (ih _ (hclose.scopesCounted hvm))
    · exact .halted .refl
  | defineScript module name argc body next _ ih =>
    have ha : Act.Allowed [] vm (.defineScript module name argc body) := trivial
    exact .act hvm ha trivial (ih _ _ ((Steps.single ha).scopesCounted hvm))
  | loadLibrary module loader next _ ih =>
    exact .part hvm (leads_loadLibrary hen hvm _ module loader)
      fun b vm' hvm' => ih b frame hvm'
  | register name argc body next _ ih =>
    obtain ⟨⟨steps, hsteps⟩, hadv⟩ := advances_register frame vm name ⟨argc, body⟩
    exact .advance hvm hsteps hadv (ih _ _ (hsteps.scopesCounted hvm))
  | addHandler handler next _ ih =>
    have ha : Act.Allowed [] vm (.addHandler handler) := trivial
    exact .act hvm ha trivial (ih _ ((Steps.single ha).scopesCounted hvm))
  | «recall» next ih => exact ih _ frame hvm
  | remember memory next ih =>
    have ha : Act.Allowed [] vm (.remember memory) := trivial
    exact .act hvm ha trivial (ih _ ((Steps.single ha).scopesCounted hvm))

/-- The scopes that a program left open are closed at its end. -/
theorem steps_closeScopes (vm : Vm σ) (ids : List ScopeId) :
    (∃ steps, Steps vm steps (vm.closeScopes ids)) ∧
      ∀ id, (vm.closeScopes ids).siteOf id = if id ∈ ids then none else vm.siteOf id := by
  induction ids generalizing vm with
  | nil => exact ⟨⟨[], .refl⟩, fun id => by simp [Vm.closeScopes]⟩
  | cons k ids ih =>
    have hclose := Steps.closeScope vm k
    obtain ⟨⟨steps, hsteps⟩, hsites⟩ := ih (vm.closeScope k)
    refine ⟨⟨_, hclose.trans hsteps⟩, fun id => (hsites id).trans ?_⟩
    have hclosed : (vm.closeScope k).siteOf id = _ := Act.siteOf_closeScope vm k id
    rw [hclosed]
    by_cases hk : id = k <;> simp [hk]

end Parts

/-- Every depth of entries is entered with histories. -/
theorem enters_run (fuel : ℕ) : Enters (run fuel : Enter σ) := by
  induction fuel with
  | zero => exact fun _ _ _ _ _ _ => .halted .refl
  | succ fuel ih =>
    intro r program frame vm hopened hclean hvm
    refine (leads_eval ih program frame hvm).bind fun answer vm' steps hsteps hadv => ?_
    obtain ⟨⟨later, hlater⟩, hsites⟩ := steps_closeScopes vm' answer.2.opened
    refine .finished (hsteps.trans hlater) ⟨fun id => ?_, hadv.clean hclean⟩
    rw [hsites]
    -- a scope that is left to close was opened by the program, and so is a new one
    split
    · next hid =>
      have hle := (hadv.fresh id hid).resolve_left (hopened ▸ List.not_mem_nil)
      rw [Vm.siteOf_of_le hvm hle]
    · next hid => exact hadv.kept id (hopened ▸ List.not_mem_nil) hid

/-- **Runs are histories.** Whatever a program does, and however its run comes to an end, it takes
the machine through some steps. -/
theorem steps_run {vm : Vm σ} (hvm : vm.ScopesCounted) (fuel : ℕ) {r : Role} (program : Program σ r)
    {frame : Frame σ} (hopened : frame.opened = []) (hclean : frame.registrar.Clean) :
    ∃ steps, Steps vm steps (run fuel program frame vm).vm :=
  (enters_run fuel program frame vm hopened hclean hvm).steps

/-- When a run ends, exactly the scopes are open that were open at its beginning. -/
theorem sameSites_run {vm vm' : Vm σ} (hvm : vm.ScopesCounted) {fuel : ℕ} {r : Role}
    {program : Program σ r} {frame : Frame σ} (hopened : frame.opened = [])
    (hclean : frame.registrar.Clean) {answer : Answer r × Registrar (NativeFunction σ)}
    (hrun : run fuel program frame vm = .finished answer vm') : vm.SameSites vm' :=
  ((enters_run fuel program frame vm hopened hclean hvm).post answer vm' hrun).1

/-! ### A run -/

/-- A host that defines a module, mints a text in the place of an integer that it released, and
allocates a block on whose second cell it protects against writes; then it invokes the top-level
code of the module. -/
def tour : Program Unit .host :=
  .host (.defineModule "tour") fun (module : Except LoadError Handle) =>
    match module with
    | .error _ => .done ()
    | .ok module =>
      .openModule module fun scope =>
        match scope with
        | .error _ => .done ()
        | .ok id =>
          .within id (.mint (.int 7)) fun (first : Handle) =>
            .host (.release first) fun _ =>
              .within id (.mint (.string "seven")) fun (second : Handle) =>
                .within id (.alloc 2) fun (block : Option Handle) =>
                  .within id (.write (Handle.ofOption block) 1 second) fun _ =>
                    .host (.protect (Handle.ofOption block) 1 .writes) fun _ =>
                      .within id .currentFunction fun (function : Handle) =>
                        .invoke function [] fun _ => .done ()

/-- The machine in the midst of the tour, when it has just entered the top-level code. -/
def midTour : Vm Unit := (run 1 tour .bare (.new .default ())).vm

theorem steps_midTour : ∃ steps, Steps (.new .default ()) steps midTour :=
  steps_run (Vm.scopesCounted_new _ _) 1 tour rfl (Registrar.clean_new _)

theorem addressable_midTour : midTour.table.Addressable := by
  unfold Handle.Table.Addressable
  decide +kernel

/-- The top-level code of the module of the tour takes no arguments. -/
theorem argc_midTour {callee : Function Unit}
    (hcallee : midTour.object? (.ofParts 1 1) = some (.function callee)) : callee.argc = 0 := by
  have hzero : (midTour.function (.ofParts 1 1)).toOption.map Function.argc = some 0 := by
    decide +kernel
  rw [function_eq_ok.mpr hcallee] at hzero
  exact Option.some_inj.mp hzero

/-- The top-level code of the module of the tour is a function without arguments. -/
theorem init_midTour :
    midTour.object? (.ofParts 1 1) = some (.function (initFunction (.ofParts 0 1))) := by
  obtain ⟨past, hpast⟩ := steps_midTour
  have hinit : (midTour.module? (.ofParts 0 1)).map Module.init = some (.ofParts 1 1) := by
    decide +kernel
  obtain ⟨md, hmd, hcode⟩ := Option.map_eq_some_iff.mp hinit
  exact hcode ▸ hpast.object?_init addressable_midTour hmd

/-- In the midst of the tour, the scope of the top-level code is open. -/
theorem scope_midTour : midTour.scopes.get? ⟨0⟩ =
    some ⟨.ofParts 0 1, .ofParts 1 1, [.ofParts 2 1, .ofParts 2 2]⟩ :=
  Vm.scope_of_fields (by decide +kernel)

example : midTour.heap = ⟨1, 2⟩ ∧ midTour.table.live = 4 := by decide +kernel

end NativeBridge
