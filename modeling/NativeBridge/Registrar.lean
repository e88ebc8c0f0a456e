import NativeBridge.Dict

/-!
# Registrars

While a native library loads it hands its functions to a *registrar*, which keeps the first
function of each valid name in the order of registration and counts what it refuses. A finished
registrar is a table of functions, which are found by an index of their names.
-/

namespace NativeBridge

/-- A name may be given to a module or a function unless it is empty or starts with `<`. -/
def validName (name : String) : Bool := name.toList.head?.any (· ≠ '<')

/-- What becomes of a registration. -/
inductive Registration where
  | accepted
  /-- The name is empty or reserved. -/
  | invalidName
  /-- The name is taken. -/
  | duplicate
  deriving DecidableEq

/-- Functions of type `φ` registered so far. -/
structure Registrar (φ : Type) where
  /-- The name of the library. -/
  library : String
  /-- The names that are taken. -/
  seen : List String
  /-- The accepted functions, in the order of registration. -/
  entries : List (String × φ)
  /-- How many registrations were refused. -/
  rejected : Nat
  /-- The names that are taken are those of the accepted functions. -/
  mem_seen : ∀ name, name ∈ seen ↔ name ∈ entries.map Prod.fst

/-- Functions by name, in the order of registration. -/
structure FunctionTable (φ : Type) where
  /-- The functions with their names. -/
  entries : List (String × φ)

namespace Registrar

variable {φ : Type}

/-- No functions yet. -/
def new (library : String) : Registrar φ := ⟨library, [], [], 0, fun _ => Iff.rfl⟩

/-- What becomes of a registration under `name`. -/
def verdict (r : Registrar φ) (name : String) : Registration :=
  if !validName name then .invalidName
  else if name ∈ r.seen then .duplicate
  else .accepted

/-- Registers `f` under `name` if the verdict on the name accepts it. -/
def insert (r : Registrar φ) (name : String) (f : φ) : Registrar φ :=
  match r.verdict name with
  | .accepted =>
    { r with
      seen := name :: r.seen
      entries := r.entries ++ [(name, f)]
      mem_seen := by simp [r.mem_seen, or_comm] }
  | _ => { r with rejected := r.rejected + 1 }

/-- The table of the accepted functions. -/
def finish (r : Registrar φ) : FunctionTable φ := ⟨r.entries⟩

end Registrar

namespace FunctionTable

variable {φ : Type}

/-- The place of each name among the entries; the last one of a name that has several. -/
def index (t : FunctionTable φ) : Dict String Nat :=
  t.entries.zipIdx.foldl (fun places e => places.set e.1.1 e.2) .empty

/-- The function of a name, found by its place. -/
def get? (t : FunctionTable φ) (name : String) : Option φ :=
  (t.index.get? name).bind fun i => t.entries[i]?.map Prod.snd

/-- The number of functions. -/
def size (t : FunctionTable φ) : Nat := t.entries.length

/-- Whether there are no functions. -/
def isEmpty (t : FunctionTable φ) : Bool := t.entries.isEmpty

/-- The names, in the order of registration. -/
def names (t : FunctionTable φ) : List String := t.entries.map Prod.fst

/-- The index of entries that follow others, on top of `places`, leads to the first function of a
name, and where there is none to what `places` leads to. -/
theorem bind_get?_foldl_set (before entries : List (String × φ)) (places : Dict String Nat)
    (hnd : (entries.map Prod.fst).Nodup) (name : String) :
    (((entries.zipIdx before.length).foldl (fun places e => places.set e.1.1 e.2) places).get?
        name).bind (fun i => (before ++ entries)[i]?.map Prod.snd) =
      (entries.lookup name).or
        ((places.get? name).bind fun i => (before ++ entries)[i]?.map Prod.snd) := by
  induction entries generalizing before places with
  | nil => rfl
  | cons e rest ih =>
    obtain ⟨n, f⟩ := e
    rw [List.map_cons, List.nodup_cons] at hnd
    have hrest := ih (before ++ [(n, f)]) (places.set n before.length) hnd.2
    simp only [List.length_append, List.length_cons, List.length_nil, List.append_assoc,
      List.cons_append, List.nil_append, Nat.zero_add] at hrest
    rw [List.zipIdx_cons, List.foldl_cons, hrest, Dict.get?_set, List.lookup_cons]
    by_cases hn : name = n
    · -- the name is none of the others, so it is found at the place that was put in
      subst hn
      simp [Dict.lookup_eq_none_iff.mpr hnd.1]
    · simp [hn, beq_eq_false_iff_ne.mpr hn]

/-- If no name has several entries, the index leads to what a search from the front finds. -/
theorem get?_eq_lookup {t : FunctionTable φ} (hnd : t.names.Nodup) (name : String) :
    t.get? name = t.entries.lookup name := by
  have hindex := bind_get?_foldl_set [] t.entries .empty hnd name
  simpa [get?, index] using hindex

end FunctionTable

end NativeBridge
