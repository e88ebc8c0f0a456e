import Mathlib.Data.List.Nodup
import NativeBridge.Proofs.Machine.Object
import NativeBridge.Proofs.Machine.Scope

/-!
# Scalars and the scopes that own them

A log of mintings says which handle was minted through which scope. The locals of an open scope are
what was minted through it, and every scalar that is live was minted through a scope that is still
open (`Owned`): a scope is closed only when none of its scalars is live. Every move keeps this, with
its own mintings added to the log (`Owned.apply`).
-/

namespace NativeBridge

open Handle.Table (Addressable Sound)

variable {σ : Type}

/-- Mintings in order: the scopes, and the handles that were minted through them. -/
abbrev MintLog := List (ScopeId × Handle)

/-- What was minted through a scope, in order. -/
def MintLog.through (log : MintLog) (id : ScopeId) : List Handle :=
  (log.filter fun e => e.1 = id).map Prod.snd

namespace MintLog

variable {log : MintLog} {id : ScopeId} {h : Handle}

theorem mem_through : h ∈ log.through id ↔ (id, h) ∈ log := by
  simp [through]

theorem through_append (log log' : MintLog) (id : ScopeId) :
    MintLog.through (log ++ log') id = log.through id ++ log'.through id := by
  simp [through]

theorem nodup_through (hlog : (log.map Prod.snd).Nodup) (id : ScopeId) : (log.through id).Nodup :=
  hlog.sublist (List.filter_sublist.map _)

/-- No handle was minted through two scopes. -/
theorem scope_unique (hlog : (log.map Prod.snd).Nodup) {id' : ScopeId} (h₁ : (id, h) ∈ log)
    (h₂ : (id', h) ∈ log) : id = id' :=
  congrArg Prod.fst (List.inj_on_of_nodup_map hlog h₁ h₂ rfl)

end MintLog

namespace Move

/-- What a move mints. -/
def mints (x : Holdings σ) : Move σ → MintLog
  | mint id s => [(id, (x.table.insert (.scalar s)).1)]
  | _ => []

variable {x : Holdings σ} {m : Move σ}

theorem nodup_mints (x : Holdings σ) (m : Move σ) : ((m.mints x).map Prod.snd).Nodup := by
  cases m with
  | mint id s => exact List.nodup_singleton _
  | _ => exact List.nodup_nil

/-- What is minted is a new scalar, minted through an open scope. -/
theorem of_mem_mints (hs : x.table.Sound) (hm : m.Allowed x) (hf : (m.apply x).table.Addressable)
    {e : ScopeId × Handle} (he : e ∈ m.mints x) :
    ¬ x.table.Issued e.2 ∧ x.siteOf e.1 ≠ none ∧
      ∃ s, (m.apply x).table.get? e.2 = some (.scalar s) := by
  cases m with
  | mint id s =>
    obtain rfl := List.mem_singleton.mp he
    obtain ⟨scope, hid⟩ := hm
    refine ⟨Handle.Table.not_issued_insert hs hf, by simp [Holdings.siteOf, hid], s, ?_⟩
    exact (get?_mint hs hf _).trans (if_pos rfl)
  | _ => cases he

/-- A live scalar was live before the move, or it is minted by it. -/
theorem scalar_before (hs : x.table.Sound) (hm : m.Allowed x)
    (hf : (m.apply x).table.Addressable) {h : Handle} {s : Scalar}
    (hg : (m.apply x).table.get? h = some (.scalar s)) :
    x.table.get? h = some (.scalar s) ∨ ∃ id, (id, h) ∈ m.mints x := by
  have hedit : ∀ {k b} {f : Heap.Block → Heap.Block}, x.table.get? k = some (.block b) →
      (x.table.replay (edit x.table k f)).get? h = some (.scalar s) →
      x.table.get? h = some (.scalar s) := by
    intro k b f hb hafter
    rw [get?_edit hb] at hafter
    split at hafter
    · cases hafter
    · exact hafter
  cases m with
  | mint id t =>
    rw [get?_mint hs hf] at hg
    split at hg
    · next hnew => exact .inr ⟨id, by simp [mints, hnew]⟩
    · exact .inl hg
  | release k =>
    rw [get?_release hs] at hg
    split at hg
    · cases hg
    · exact .inl hg
  | alloc size =>
    rw [get?_alloc hs hf] at hg
    split at hg
    · cases hg
    · exact .inl hg
  | free k =>
    rw [get?_free hs] at hg
    split at hg
    · cases hg
    · exact .inl hg
  | resize k size =>
    obtain ⟨-, b, hb, -⟩ := hm
    exact .inl (hedit hb hg)
  | write k offset value =>
    obtain ⟨-, b, c, hb, -⟩ := hm
    exact .inl (hedit hb hg)
  | protect k offset p =>
    obtain ⟨b, c, hb, -⟩ := hm
    exact .inl (hedit hb hg)
  | createModule name =>
    obtain ⟨-, -, -, -, hget⟩ := get?_createModule hs hf
    rw [hget] at hg
    split at hg
    · cases hg
    · split at hg
      · cases hg
      · exact .inl hg
  | addFunction module name argc body =>
    obtain ⟨-, md, hmd, -⟩ := hm
    obtain ⟨-, -, hget⟩ := get?_addFunction hs hmd hf
    rw [hget] at hg
    split at hg
    · cases hg
    · split at hg
      · cases hg
      · exact .inl hg
  | openScope site => exact .inl hg
  | closeScope id => exact .inl hg

/-- The locals of a scope grow by what is minted through it; a scope that is opened has none. -/
theorem locals_apply {id : ScopeId} {scope : Scope}
    (hid : (m.apply x).scopes.get? id = some scope) :
    (∃ old, x.scopes.get? id = some old ∧
      scope.locals = old.locals ++ (m.mints x).through id) ∨
      id = ⟨x.scopesOpened⟩ ∧ scope.locals = [] ∧ m.mints x = [] := by
  have hsame : m.mints x = [] → x.scopes.get? id = some scope → ∃ old,
      x.scopes.get? id = some old ∧ scope.locals = old.locals ++ (m.mints x).through id :=
    fun he hold => ⟨scope, hold, by simp [he, MintLog.through]⟩
  cases m with
  | mint k s =>
    simp only [apply, scopes] at hid
    split at hid
    · next old hk =>
      rw [Dict.get?_set] at hid
      split at hid
      · next he =>
        obtain rfl := he
        cases hid
        exact .inl ⟨old, hk, by simp [mints, MintLog.through]⟩
      · next hne => exact .inl ⟨scope, hid, by simp [mints, MintLog.through, Ne.symm hne]⟩
    · next hk =>
      have hne : k ≠ id := fun e => by rw [e, hid] at hk; cases hk
      exact .inl ⟨scope, hid, by simp [mints, MintLog.through, hne]⟩
  | openScope site =>
    simp only [apply, scopes, Dict.get?_set] at hid
    split at hid
    · next he => cases hid; exact .inr ⟨he, rfl, rfl⟩
    · exact .inl (hsame rfl hid)
  | closeScope k =>
    simp only [apply, scopes, Dict.get?_erase] at hid
    split at hid
    · cases hid
    · exact .inl (hsame rfl hid)
  | _ => exact .inl (hsame rfl hid)

theorem nodup_keys_scopes (hx : x.scopes.keys.Nodup) (m : Move σ) :
    (m.apply x).scopes.keys.Nodup := by
  cases m with
  | mint id s =>
    simp only [apply, scopes]
    split
    · exact Dict.nodup_keys_set hx _ _
    · exact hx
  | openScope site => exact Dict.nodup_keys_set hx _ _
  | closeScope id => exact Dict.nodup_keys_erase hx id
  | _ => exact hx

end Move

/-- The scopes that are open own the scalars that are live, as a log of mintings says. -/
structure Owned (log : MintLog) (x : Holdings σ) : Prop where
  /-- No handle was minted twice. -/
  nodup : (log.map Prod.snd).Nodup
  issued : ∀ e ∈ log, x.table.Issued e.2
  numbered : ∀ e ∈ log, e.1.number < x.scopesOpened
  counted : x.ScopesCounted
  keys : x.scopes.keys.Nodup
  /-- The locals of an open scope are what was minted through it. -/
  locals : ∀ id scope, x.scopes.get? id = some scope → scope.locals = log.through id
  /-- A live scalar was minted through a scope that is still open. -/
  owner : ∀ h s, x.table.get? h = some (.scalar s) → ∃ id, (id, h) ∈ log ∧ x.siteOf id ≠ none
  /-- What was minted is a scalar for all its life. -/
  scalar : ∀ e ∈ log, ∀ o, x.table.get? e.2 = some o → ∃ s, o = .scalar s

namespace Owned

variable {x : Holdings σ} {log : MintLog}

/-- The owner of a live scalar is open after a move, which closes no scope with live scalars. -/
theorem siteOf_owner {m : Move σ} (hx : Owned log x) (hm : m.Allowed x) {h : Handle} {s : Scalar}
    {id : ScopeId} (hg : (m.apply x).table.get? h = some (.scalar s)) (hlog : (id, h) ∈ log)
    (hopen : x.siteOf id ≠ none) : (m.apply x).siteOf id ≠ none := by
  rw [Move.siteOf_apply]
  cases m with
  | openScope site =>
    simp only
    split
    · exact fun e => nomatch e
    · exact hopen
  | closeScope k =>
    simp only
    split
    · next he =>
      obtain rfl := he
      intro _
      -- a scope that owns a live scalar is not closed
      obtain ⟨site, hsite⟩ := Option.ne_none_iff_exists'.mp hopen
      obtain ⟨scope, hscope, -⟩ := Option.map_eq_some_iff.mp hsite
      have hlocal : h ∈ scope.locals := by
        rw [hx.locals id scope hscope]
        exact MintLog.mem_through.mpr hlog
      exact hm scope hscope h hlocal s hg
    · exact hopen
  | _ => exact hopen

/-- **Ownership.** Every move keeps what the scopes own. -/
theorem apply {m : Move σ} (hs : x.table.Sound) (hm : m.Allowed x)
    (hf : (m.apply x).table.Addressable) (hx : Owned log x) :
    Owned (log ++ m.mints x) (m.apply x) where
  nodup := by
    rw [List.map_append, List.nodup_append]
    refine ⟨hx.nodup, m.nodup_mints x, fun h hh k hk => ?_⟩
    obtain ⟨e, he, rfl⟩ := List.mem_map.mp hh
    obtain ⟨e', he', rfl⟩ := List.mem_map.mp hk
    exact Handle.Table.ne_of_issued (hx.issued e he) (Move.of_mem_mints hs hm hf he').1
  issued e he := by
    rcases List.mem_append.mp he with he | he
    · exact Handle.Table.issued_replay hs hf (hx.issued e he)
    · obtain ⟨-, -, s, hg⟩ := Move.of_mem_mints hs hm hf he
      exact Handle.Table.issued_of_get? (Handle.Table.sound_replay hs hf) hg
  numbered e he := by
    refine Nat.lt_of_lt_of_le ?_ (Move.scopesOpened_le_apply x m)
    rcases List.mem_append.mp he with he | he
    · exact hx.numbered e he
    · exact hx.counted e.1 (Move.of_mem_mints hs hm hf he).2.1
  counted := Move.scopesCounted_apply hx.counted m
  keys := Move.nodup_keys_scopes hx.keys m
  locals id scope hid := by
    rw [MintLog.through_append]
    rcases Move.locals_apply hid with ⟨old, hold, he⟩ | ⟨rfl, hnone, hmints⟩
    · rw [he, hx.locals id old hold]
    · rw [hnone, hmints]
      -- nothing was minted through a scope with a number that is not given out yet
      refine (List.append_eq_nil_iff.mpr ⟨?_, rfl⟩).symm
      refine List.eq_nil_iff_forall_not_mem.mpr fun h hh => ?_
      exact Nat.lt_irrefl _ (hx.numbered _ (MintLog.mem_through.mp hh))
  owner h s hg := by
    rcases Move.scalar_before hs hm hf hg with hold | ⟨id, hmint⟩
    · obtain ⟨id, hlog, hopen⟩ := hx.owner h s hold
      exact ⟨id, List.mem_append_left _ hlog, hx.siteOf_owner hm hg hlog hopen⟩
    · refine ⟨id, List.mem_append_right _ hmint, ?_⟩
      have hopen := (Move.of_mem_mints hs hm hf hmint).2.1
      rw [Move.siteOf_apply]
      cases m with
      | mint k t => exact hopen
      | _ => cases hmint
  scalar e he o hg := by
    rcases List.mem_append.mp he with he | he
    · obtain ⟨a, ha, hbecomes⟩ := Move.object_before hs hm hf (hx.issued e he) hg
      obtain ⟨s, rfl⟩ := hx.scalar e he a ha
      exact ⟨s, hbecomes⟩
    · obtain ⟨-, -, s, hnew⟩ := Move.of_mem_mints hs hm hf he
      exact ⟨s, Option.some_inj.mp (hg.symm.trans hnew)⟩

end Owned

end NativeBridge
