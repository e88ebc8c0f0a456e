/-!
# Dictionaries

Finite maps as lists of entries in the order in which their keys first appeared. Writing to a
key that is present replaces its entry in place.
-/

namespace NativeBridge

/-- A finite map from `κ` to `α`. -/
structure Dict (κ α : Type) where
  /-- The entries, one for each key. -/
  entries : List (κ × α)

namespace Dict

variable {κ α : Type} [DecidableEq κ]

/-- The map without entries. -/
def empty : Dict κ α := ⟨[]⟩

/-- What `k` maps to. -/
def get? (d : Dict κ α) (k : κ) : Option α := d.entries.lookup k

/-- Whether `k` maps to something. -/
def contains (d : Dict κ α) (k : κ) : Bool := (d.get? k).isSome

/-- The number of entries. -/
def size (d : Dict κ α) : Nat := d.entries.length

/-- The keys, in the order in which they first appeared. -/
def keys (d : Dict κ α) : List κ := d.entries.map Prod.fst

/-- Replaces the first entry of `k`, or adds one at the end. -/
def setEntry (k : κ) (a : α) : List (κ × α) → List (κ × α)
  | [] => [(k, a)]
  | (k', b) :: rest => if k = k' then (k, a) :: rest else (k', b) :: setEntry k a rest

/-- Maps `k` to `a` and every other key as before. -/
def set (d : Dict κ α) (k : κ) (a : α) : Dict κ α := ⟨setEntry k a d.entries⟩

/-- Drops what `k` maps to. -/
def erase (d : Dict κ α) (k : κ) : Dict κ α := ⟨d.entries.filter fun e => e.1 ≠ k⟩

@[simp] theorem get?_empty (k : κ) : (empty : Dict κ α).get? k = none := rfl

theorem lookup_eq_none_iff {k : κ} {l : List (κ × α)} : l.lookup k = none ↔ k ∉ l.map Prod.fst := by
  rw [List.lookup_eq_none_iff]
  constructor
  · intro h hk
    obtain ⟨e, he, rfl⟩ := List.mem_map.mp hk
    simpa using h e he
  · intro h e he
    exact bne_iff_ne.mpr fun hk => h (List.mem_map.mpr ⟨e, he, hk.symm⟩)

theorem lookup_setEntry (k k' : κ) (a : α) (l : List (κ × α)) :
    (setEntry k a l).lookup k' = if k' = k then some a else l.lookup k' := by
  induction l with
  | nil =>
    by_cases h : k' = k <;> simp [setEntry, List.lookup_cons, h, beq_eq_false_iff_ne.mpr]
  | cons e rest ih =>
    obtain ⟨k₀, b⟩ := e
    by_cases h₀ : k = k₀
    · subst h₀
      by_cases h : k' = k <;> simp [setEntry, List.lookup_cons, h, beq_eq_false_iff_ne.mpr]
    · by_cases h : k' = k₀
      · subst h
        simp [setEntry, h₀, Ne.symm h₀]
      · simp [setEntry, List.lookup_cons, h₀, ih, beq_eq_false_iff_ne.mpr h]

@[simp] theorem get?_set (d : Dict κ α) (k k' : κ) (a : α) :
    (d.set k a).get? k' = if k' = k then some a else d.get? k' :=
  lookup_setEntry k k' a d.entries

theorem get?_erase (d : Dict κ α) (k k' : κ) :
    (d.erase k).get? k' = if k' = k then none else d.get? k' := by
  obtain ⟨l⟩ := d
  simp only [get?, erase]
  induction l with
  | nil => simp
  | cons e rest ih =>
    obtain ⟨k₀, b⟩ := e
    by_cases h₀ : k₀ = k
    · rw [List.filter_cons_of_neg (by simp [h₀]), ih]
      by_cases h : k' = k
      · rw [if_pos h, if_pos h]
      · simp [List.lookup_cons, h, h₀, beq_eq_false_iff_ne.mpr]
    · rw [List.filter_cons_of_pos (by simp [h₀])]
      by_cases h : k' = k₀
      · simp [h, h₀]
      · simp only [List.lookup_cons, beq_eq_false_iff_ne.mpr h, ih]

theorem length_setEntry (k : κ) (a : α) (l : List (κ × α)) :
    (setEntry k a l).length = if (l.lookup k).isSome then l.length else l.length + 1 := by
  induction l with
  | nil => rfl
  | cons e rest ih =>
    obtain ⟨k₀, b⟩ := e
    by_cases h : k = k₀
    · simp [setEntry, h]
    · simp only [setEntry, if_neg h, List.length_cons, ih, List.lookup_cons,
        beq_eq_false_iff_ne.mpr h]
      split <;> rfl

/-- Writing to a new key adds an entry. -/
theorem size_set_of_get?_eq_none {d : Dict κ α} {k : κ} (h : d.get? k = none) (a : α) :
    (d.set k a).size = d.size + 1 := by
  simp only [get?] at h
  simp [size, set, length_setEntry, h]

/-! ### Keys -/

theorem map_fst_setEntry (k : κ) (a : α) (l : List (κ × α)) :
    (setEntry k a l).map Prod.fst =
      if k ∈ l.map Prod.fst then l.map Prod.fst else l.map Prod.fst ++ [k] := by
  induction l with
  | nil => rfl
  | cons e rest ih =>
    obtain ⟨k₀, b⟩ := e
    by_cases h : k = k₀
    · simp [setEntry, h]
    · rw [setEntry, if_neg h, List.map_cons, ih]
      by_cases hk : k ∈ rest.map Prod.fst <;> simp [h, hk]

theorem nodup_keys_set {d : Dict κ α} (hd : d.keys.Nodup) (k : κ) (a : α) :
    (d.set k a).keys.Nodup := by
  simp only [keys, set, map_fst_setEntry]
  split
  · exact hd
  · next hk =>
    refine List.nodup_append.mpr ⟨hd, by simp, fun x hx y hy => ?_⟩
    rw [List.mem_singleton.mp hy]
    exact fun e => hk (e ▸ hx)

theorem nodup_keys_erase {d : Dict κ α} (hd : d.keys.Nodup) (k : κ) : (d.erase k).keys.Nodup :=
  hd.sublist (List.filter_sublist.map _)

/-- Where every key has one entry, the entries are what the keys map to. -/
theorem mem_entries_iff {d : Dict κ α} (hd : d.keys.Nodup) {k : κ} {a : α} :
    (k, a) ∈ d.entries ↔ d.get? k = some a := by
  obtain ⟨l⟩ := d
  simp only [keys, get?] at hd ⊢
  induction l with
  | nil => simp
  | cons e rest ih =>
    obtain ⟨k₀, b⟩ := e
    rw [List.map_cons, List.nodup_cons] at hd
    by_cases h : k = k₀
    · subst h
      have hrest : (k, a) ∉ rest := fun hmem => hd.1 (List.mem_map.mpr ⟨_, hmem, rfl⟩)
      simp [hrest, eq_comm]
    · simp [List.lookup_cons, h, beq_eq_false_iff_ne.mpr h, ih hd.2]

end Dict

end NativeBridge
