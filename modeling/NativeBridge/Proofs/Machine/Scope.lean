import NativeBridge.Proofs.Machine.Step

/-!
# Scopes along histories

Scopes are numbered in the order of opening, so that a scope that is opened is a new one
(`ScopesCounted`). Which scopes are open, and at which sites, changes by opening and closing only
(`Act.sameSites_perform`).
-/

namespace NativeBridge

variable {σ : Type}

namespace Holdings

/-- The site of an open scope. -/
def siteOf (x : Holdings σ) (id : ScopeId) : Option Site := (x.scopes.get? id).map Scope.site

/-- Every open scope has a number below the number of scopes opened. -/
def ScopesCounted (x : Holdings σ) : Prop :=
  ∀ id, x.siteOf id ≠ none → id.number < x.scopesOpened

end Holdings

namespace Move

theorem siteOf_apply (x : Holdings σ) (m : Move σ) (id : ScopeId) :
    (m.apply x).siteOf id =
      match m with
      | openScope site => if id = ⟨x.scopesOpened⟩ then some site else x.siteOf id
      | closeScope k => if id = k then none else x.siteOf id
      | _ => x.siteOf id := by
  cases m with
  | mint k s =>
    simp only [Holdings.siteOf, apply, scopes]
    split
    · next scope hk =>
      rw [Dict.get?_set]
      split
      · next hid => rw [hid, hk]; rfl
      · rfl
    · rfl
  | openScope site =>
    simp only [Holdings.siteOf, apply, scopes, Dict.get?_set]
    split <;> rfl
  | closeScope k =>
    simp only [Holdings.siteOf, apply, scopes, Dict.get?_erase]
    split <;> rfl
  | _ => rfl

theorem scopesOpened_le_apply (x : Holdings σ) (m : Move σ) :
    x.scopesOpened ≤ (m.apply x).scopesOpened := by
  cases m with
  | openScope site => exact Nat.le_succ _
  | _ => exact Nat.le_refl _

theorem scopesCounted_apply {x : Holdings σ} (hx : x.ScopesCounted) (m : Move σ) :
    (m.apply x).ScopesCounted := by
  intro id hsite
  rw [siteOf_apply] at hsite
  cases m with
  | openScope site =>
    simp only at hsite
    split at hsite
    · next he => rw [he]; exact Nat.lt_succ_self _
    · exact Nat.lt_succ_of_lt (hx id hsite)
  | closeScope k =>
    simp only at hsite
    split at hsite
    · exact absurd rfl hsite
    · exact hx id hsite
  | _ => exact hx id hsite

end Move

theorem Holdings.ScopesCounted.after {x : Holdings σ} (hx : x.ScopesCounted) (ms : List (Move σ)) :
    (x.after ms).ScopesCounted := by
  induction ms generalizing x with
  | nil => exact hx
  | cons m ms ih => exact ih (Move.scopesCounted_apply hx m)

theorem Holdings.scopesOpened_le_after (x : Holdings σ) (ms : List (Move σ)) :
    x.scopesOpened ≤ (x.after ms).scopesOpened := by
  induction ms generalizing x with
  | nil => exact Nat.le_refl _
  | cons m ms ih => exact Nat.le_trans (Move.scopesOpened_le_apply x m) (ih _)

/-! ### Scopes of a machine -/

namespace Vm

/-- The site of an open scope. -/
def siteOf (vm : Vm σ) (id : ScopeId) : Option Site := vm.holdings.siteOf id

/-- Every open scope has a number below the number of scopes opened. -/
def ScopesCounted (vm : Vm σ) : Prop := vm.holdings.ScopesCounted

/-- The same scopes are open, at the same sites. -/
def SameSites (vm vm' : Vm σ) : Prop := ∀ id, vm'.siteOf id = vm.siteOf id

theorem SameSites.refl (vm : Vm σ) : SameSites vm vm := fun _ => rfl

theorem SameSites.trans {vm₁ vm₂ vm₃ : Vm σ} (h₁₂ : SameSites vm₁ vm₂) (h₂₃ : SameSites vm₂ vm₃) :
    SameSites vm₁ vm₃ := fun id => (h₂₃ id).trans (h₁₂ id)

theorem sameSites_occur (vm : Vm σ) (fault : Fault) : vm.SameSites (vm.occur fault).2 :=
  fun _ => rfl

theorem sameSites_push (vm : Vm σ) (owner : Handle) (r : Report) :
    vm.SameSites (vm.push owner r) := by
  intro id
  rw [siteOf, holdings_push]
  rfl

theorem siteOf_eq_some {vm : Vm σ} {id : ScopeId} {site : Site} :
    vm.siteOf id = some site ↔ ∃ scope, vm.scopes.get? id = some scope ∧ scope.site = site :=
  Option.map_eq_some_iff

/-- A scope that is open is what its fields are. -/
theorem scope_of_fields {vm : Vm σ} {id : ScopeId} {module function : Handle} {locals : List Handle}
    (hfields : (vm.scopes.get? id).map
      (fun scope => (scope.module, scope.function, scope.locals)) =
        some (module, function, locals)) :
    vm.scopes.get? id = some ⟨module, function, locals⟩ := by
  obtain ⟨⟨_, _, _⟩, hid, he⟩ := Option.map_eq_some_iff.mp hfields
  cases he
  exact hid

/-- A scope that is not yet numbered is not open. -/
theorem siteOf_of_le {vm : Vm σ} (hvm : vm.ScopesCounted) {id : ScopeId}
    (hle : vm.scopesOpened ≤ id.number) : vm.siteOf id = none := by
  by_contra hne
  exact Nat.not_lt.mpr hle (hvm id hne)

theorem scopesCounted_new (options : Options) (memory : σ) : (new options memory).ScopesCounted :=
  fun _ hid => absurd rfl hid

end Vm

theorem Steps.scopesCounted {vm₀ vm : Vm σ} {steps : List (Step σ)} (h : Steps vm₀ steps vm)
    (h₀ : vm₀.ScopesCounted) : vm.ScopesCounted := by
  rw [Vm.ScopesCounted, h.holdings_eq]
  exact h₀.after _

theorem Steps.scopesOpened_le {vm₀ vm : Vm σ} {steps : List (Step σ)} (h : Steps vm₀ steps vm) :
    vm₀.scopesOpened ≤ vm.scopesOpened := by
  rw [← Vm.scopesOpened_holdings vm, h.holdings_eq]
  exact vm₀.holdings.scopesOpened_le_after _

/-! ### Acts -/

/-- The move opens no scope and closes none. -/
def Move.KeepsSites : Move σ → Prop
  | openScope _ => False
  | closeScope _ => False
  | _ => True

theorem Holdings.siteOf_after {x : Holdings σ} {ms : List (Move σ)}
    (hms : ∀ m ∈ ms, m.KeepsSites) (id : ScopeId) : (x.after ms).siteOf id = x.siteOf id := by
  induction ms generalizing x with
  | nil => rfl
  | cons m ms ih =>
    rw [after_cons, ih fun m' hm' => hms m' (List.mem_cons_of_mem _ hm'), Move.siteOf_apply]
    have hm := hms m List.mem_cons_self
    cases m with
    | openScope site => exact hm.elim
    | closeScope k => exact hm.elim
    | _ => rfl

theorem Vm.keepsSites_releases {t : Handle.Table (Object σ)} {hs : List Handle} :
    ∀ m ∈ releases t hs, m.KeepsSites := by
  induction hs generalizing t with
  | nil => exact fun _ hm => nomatch hm
  | cons h hs ih =>
    intro m hm
    unfold releases at hm
    split at hm
    · rcases List.mem_cons.mp hm with rfl | hm
      · trivial
      · exact ih m hm
    · exact ih m hm

namespace Act

/-- The act neither opens nor closes a scope. -/
def KeepsSites : Act σ → Prop
  | openScope _ => False
  | closeScope _ => False
  | _ => True

theorem keepsSites_moves {vm : Vm σ} {act : Act σ} (ha : act.KeepsSites) :
    ∀ m ∈ act.moves vm, m.KeepsSites := by
  intro m hm
  have hcause := causedBy_of_mem hm
  cases m with
  | openScope site =>
    obtain rfl : act = .openScope site := hcause
    exact ha
  | closeScope id =>
    obtain rfl : act = .closeScope id := hcause
    exact ha
  | _ => trivial

/-- Acts that are not about scopes leave them open at their sites. -/
theorem sameSites_perform {past : List (Step σ)} {vm : Vm σ} {act : Act σ}
    (ha : act.Allowed past vm) (hk : act.KeepsSites) : vm.SameSites (act.perform vm) := by
  intro id
  rw [Vm.siteOf, holdings_perform ha, Holdings.siteOf_after (keepsSites_moves hk)]
  rfl

theorem siteOf_openScope (vm : Vm σ) (site : Site) (id : ScopeId) :
    (perform vm (.openScope site)).siteOf id =
      if id = ⟨vm.scopesOpened⟩ then some site else vm.siteOf id :=
  Move.siteOf_apply vm.holdings (.openScope site) id

theorem siteOf_closeScope (vm : Vm σ) (k id : ScopeId) :
    (perform vm (.closeScope k)).siteOf id = if id = k then none else vm.siteOf id := by
  rw [perform, Vm.siteOf, Vm.holdings_closeScope]
  cases hk : vm.scopes.get? k with
  | none =>
    simp only [Vm.closeMoves, hk, Holdings.after_nil]
    split
    · next he => simp [Holdings.siteOf, he, hk]
    · rfl
  | some scope =>
    -- only the last move closes a scope; those before it release scalars
    simp only [Vm.closeMoves, hk, Holdings.after_append, Holdings.after_cons, Holdings.after_nil,
      Move.siteOf_apply]
    rw [Holdings.siteOf_after Vm.keepsSites_releases]
    rfl

end Act

end NativeBridge
