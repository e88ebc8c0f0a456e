import NativeBridge.Proofs.Machine.Object
import NativeBridge.Proofs.Machine.Run

/-!
# The identity of handles

What a handle means over whole histories of a machine. The history of the handle table is read
off the steps (`fatesOf`): which handles were minted, for which objects, and which were removed.

**Handles have an identity** (`handle_identity`): a handle resolves exactly if it was minted and
not removed since, no handle is minted twice, and while it resolves a handle addresses what it was
minted for. Scalars and functions never change at all; a block changes by the acts that name it,
and a module by those that add functions to it. So what a handle addresses at one moment can be
followed to every later one (`Steps.follows`).
-/

namespace NativeBridge

open Handle (Fate)

open Handle.Table (Addressable Records mintedIn Surviving)

variable {σ : Type}

/-! ### The history of the table -/

/-- What becomes of handles in a step. -/
def Step.fates (s : Step σ) : List (Fate (Object σ)) :=
  s.before.table.fates (s.before.holdings.changes (s.act.moves s.before))

/-- What becomes of handles in steps, in order. -/
def fatesOf (steps : List (Step σ)) : List (Fate (Object σ)) := steps.flatMap Step.fates

theorem fatesOf_append (past later : List (Step σ)) :
    fatesOf (past ++ later) = fatesOf past ++ fatesOf later := List.flatMap_append

/-- The step is about the block or the module that `h` addresses: it writes to the block, resizes it
or protects a cell, or it adds functions to the module. -/
def Step.Touches (s : Step σ) (h : Handle) : Object σ → Prop
  | .block _ => (∃ id offset value, s.act = .within id (.write h offset value)) ∨
      (∃ id size, s.act = .within id (.resize h size)) ∨
      ∃ offset p, s.act = .host (.protect h offset p)
  | .module _ => (∃ name argc body, s.act = .defineScript h name argc body) ∨
      ∃ name library rejected, s.act = .attachLibrary name library rejected ∧
        (s.before.attachLibrary name library rejected).1 = .ok h
  | _ => False

theorem Step.touches_of_mem {s : Step σ} {m : Move σ} (hm : m ∈ s.act.moves s.before) {h : Handle}
    {a : Object σ} (htouch : m.Touches h a) : s.Touches h a := by
  have hcause := Act.causedBy_of_mem hm
  cases a with
  | scalar v => exact htouch.elim
  | function f => exact htouch.elim
  | block b =>
    cases m with
    | resize k size =>
      obtain rfl : k = h := htouch
      obtain ⟨id, hid⟩ := hcause
      exact .inr (.inl ⟨id, size, hid⟩)
    | write k offset value =>
      obtain rfl : k = h := htouch
      obtain ⟨id, v, hid⟩ := hcause
      exact .inl ⟨id, offset, v, hid⟩
    | protect k offset p =>
      obtain rfl : k = h := htouch
      exact .inr (.inr ⟨offset, p, hcause⟩)
    | _ => exact htouch.elim
  | module md =>
    cases m with
    | addFunction module name argc body =>
      obtain rfl : module = h := htouch
      rcases hcause with ⟨body, hact⟩ | hact
      · exact .inl ⟨name, argc, body, hact⟩
      · exact .inr hact
    | _ => exact htouch.elim

namespace Steps

variable {vm₀ vm : Vm σ} {steps past later : List (Step σ)}

/-- The fates of the steps are those of all their changes of the table. -/
theorem fates_eq (h : Steps vm₀ steps vm) :
    vm₀.table.fates (vm₀.holdings.changes (movesOf steps)) = fatesOf steps := by
  induction h with
  | refl => rfl
  | snoc act hpast ha ih =>
    rw [movesOf_append, movesOf_singleton, Holdings.changes_append, Handle.Table.fates_append, ih,
      ← hpast.table_eq, ← hpast.holdings_eq, fatesOf_append]
    simp [fatesOf, Step.fates]

/-- **Records.** The fates of a history record the table at its end. -/
theorem records {options : Options} {memory : σ} (h : Steps (Vm.new options memory) steps vm)
    (hf : vm.table.Addressable) : Records Object.Becomes (fatesOf steps) vm.table := by
  have hs := Vm.sound_new options memory
  rw [← h.fates_eq, h.table_eq]
  rw [h.table_eq] at hf
  have hkeeps := (h.moves hs (by rwa [h.table_eq])).keeps_changes hs
    (by rwa [← h.holdings_eq, Vm.table_holdings, h.table_eq])
  exact (Handle.Table.records_empty _).replay hs Object.Becomes.refl
    (fun _ _ _ => Object.Becomes.trans) hkeeps hf

/-- What a handle addresses at two moments of a history. -/
theorem object_later {mid : Vm σ} (hs : vm₀.table.Sound) (hmid : Steps vm₀ past mid)
    (h : Steps vm₀ (past ++ later) vm) (hf : vm.table.Addressable) {k : Handle} {a b : Object σ}
    (ha : mid.object? k = some a) (hb : vm.object? k = some b) :
    a.Becomes b ∧ (b = a ∨ ∃ s ∈ later, s.Touches k a) := by
  -- the later steps are moves from the middle on, each of which has its cause in a step
  obtain ⟨hend, hmoves, hsmid⟩ := Steps.rest hs hmid h hf
  have hf' : (mid.holdings.after (movesOf later)).table.Addressable := hend ▸ hf
  rcases hmoves.object_after hsmid hf' ha with hnone | ⟨c, hc, hac, hchange⟩
  · rw [← hend] at hnone
    cases hb.symm.trans hnone
  · rw [← hend] at hc
    cases hb.symm.trans hc
    refine ⟨hac, hchange.imp id ?_⟩
    rintro ⟨m, hm, htouch⟩
    obtain ⟨s, hs, hms⟩ := List.mem_flatMap.mp hm
    exact ⟨s, hs, Step.touches_of_mem hms htouch⟩

end Steps

/-- What has become of the object `o` that the handle `k` addressed before the steps `since`. No
step has given the handle to anything else. -/
structure Vm.Follows (vm : Vm σ) (k : Handle) (o : Object σ) (since : List (Step σ)) : Prop where
  notMinted : k ∉ mintedIn (fatesOf since)
  /-- The object is there until a step removes it. -/
  live : vm.isLive k = true ↔ .removed k ∉ fatesOf since
  /-- As long as the handle resolves it addresses this object. -/
  object : ∀ o', vm.object? k = some o' →
    o.Becomes o' ∧ (o' = o ∨ ∃ s ∈ since, s.Touches k o)

/-- **Following a handle.** What a handle addresses at one moment of a history can be followed to
every later one. -/
theorem Steps.follows {options : Options} {memory : σ} {past later : List (Step σ)} {mid vm : Vm σ}
    (hmid : Steps (Vm.new options memory) past mid)
    (h : Steps (Vm.new options memory) (past ++ later) vm) (hf : vm.table.Addressable) {k : Handle}
    {o : Object σ} (ho : mid.object? k = some o) : vm.Follows k o later := by
  have hs := Vm.sound_new options memory
  have hrecords := h.records hf
  have hrecordsmid := hmid.records (hmid.addressable_at h hf)
  have hlive : Surviving (fatesOf past) k :=
    (hrecordsmid.surviving k).mp (Handle.Table.contains_iff.mpr ⟨o, ho⟩)
  have hnodup := hrecords.nodup
  rw [fatesOf_append, Handle.Table.mintedIn_append] at hnodup
  have hnew : k ∉ mintedIn (fatesOf later) := fun hk =>
    (List.nodup_append.mp hnodup).2.2 k hlive.mem_mintedIn k hk rfl
  refine ⟨hnew, ?_, fun o' ho' => hmid.object_later hs h hf ho ho'⟩
  rw [Vm.isLive, hrecords.surviving, fatesOf_append, Handle.Table.surviving_append hnew,
    and_iff_right hlive]

/-- **Handles have an identity.** At the end of every history of a machine:

* a handle resolves exactly if a step minted it and no later step removed it;
* no handle was minted twice, and neither the null handle nor one that was never minted resolves;
* a handle that resolves addresses what has become of the object that it was minted for;
* between any two moments at which a handle resolves, its object changed only by steps that are
  about it: writes, resizes and protections of a block, and additions to a module. -/
theorem handle_identity {options : Options} {memory : σ} {steps : List (Step σ)} {vm : Vm σ}
    (h : Steps (Vm.new options memory) steps vm) (hf : vm.table.Addressable) :
    (∀ k, vm.isLive k = true ↔ Surviving (fatesOf steps) k) ∧
      (mintedIn (fatesOf steps)).Nodup ∧
      vm.isLive Handle.null = false ∧
      (∀ k, k ∉ mintedIn (fatesOf steps) → vm.isLive k = false) ∧
      (∀ k a b, .minted k a ∈ fatesOf steps → vm.object? k = some b → a.Becomes b) ∧
      ∀ past later mid, steps = past ++ later → Steps (Vm.new options memory) past mid →
        ∀ k a b, mid.object? k = some a → vm.object? k = some b →
          a.Becomes b ∧ (b = a ∨ ∃ s ∈ later, s.Touches k a) := by
  have hrecords := h.records hf
  refine ⟨hrecords.surviving, hrecords.nodup, rfl, fun k hk => ?_, hrecords.related, ?_⟩
  · rw [Bool.eq_false_iff]
    exact fun hlive => hk ((hrecords.surviving k).mp hlive).mem_mintedIn
  · rintro past later mid rfl hmid k a b ha hb
    exact hmid.object_later (Vm.sound_new options memory) h hf ha hb

/-- In the midst of the tour the integer's slot holds a text, under another handle. -/
theorem handle_identity_midTour :
    ∃ steps, Steps (.new .default ()) steps midTour ∧ midTour.table.Addressable ∧
      (mintedIn (fatesOf steps)).Nodup ∧ ¬ Surviving (fatesOf steps) (.ofParts 2 1) ∧
      Surviving (fatesOf steps) (.ofParts 2 2) := by
  obtain ⟨steps, h⟩ := steps_midTour
  obtain ⟨hlive, hnodup, -⟩ := handle_identity h addressable_midTour
  refine ⟨steps, h, addressable_midTour, hnodup, fun hs => ?_, ?_⟩
  · exact absurd ((hlive _).mpr hs) (by decide +kernel)
  · exact (hlive _).mp (by decide +kernel)

end NativeBridge
