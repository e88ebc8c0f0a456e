import Mathlib.Data.List.Induction
import NativeBridge.Proofs.Machine.Run

/-!
# Registering functions in a row

A registrar is asked to take functions one after the other (`Registrar.insertAll`), as a loader asks
it (`eval_registerAll`). What it has at the end is told by the sequence alone (`registrar_law`): of
every valid name the first function, in the order of the sequence. The names that are taken, the
entries and the counter of refusals are kept in step by each registration, and the index of the
finished table leads to what a search from the front finds.
-/

namespace NativeBridge

variable {σ φ : Type}

/-- The valid names are those that are neither empty nor reserved. -/
theorem validName_iff {name : String} :
    validName name = true ↔ name ≠ "" ∧ ∀ rest, name ≠ "<" ++ rest := by
  have hreserved : ∀ rest, name = "<" ++ rest ↔ name.toList = '<' :: rest.toList := fun rest => by
    rw [← String.toList_inj, String.toList_append]
    rfl
  simp only [validName, ne_eq, hreserved, ← String.toList_eq_nil_iff]
  cases hname : name.toList with
  | nil => simp
  | cons c cs =>
    simp only [List.head?_cons, Option.any_some, decide_eq_true_iff, reduceCtorEq,
      not_false_eq_true, true_and, List.cons.injEq, not_and]
    constructor
    · intro hc rest hc'
      exact absurd hc' hc
    · intro hrest hc
      exact hrest (String.ofList cs) hc String.toList_ofList.symm

namespace Registrar

/-! ### A registration -/

/-- The reply to a registration: whether the function is taken. -/
def reply (r : Registrar φ) (name : String) : Bool := decide (r.verdict name = .accepted)

theorem reply_iff {r : Registrar φ} {name : String} :
    r.reply name = true ↔ validName name = true ∧ name ∉ r.finish.names := by
  have hseen : name ∈ r.seen ↔ name ∈ r.finish.names := r.mem_seen name
  rw [← hseen, reply, decide_eq_true_iff, verdict]
  cases validName name <;> simp

theorem entries_insert (r : Registrar φ) (name : String) (f : φ) :
    (r.insert name f).entries =
      if r.reply name then r.entries ++ [(name, f)] else r.entries := by
  unfold insert reply
  split <;> simp_all

theorem rejected_insert (r : Registrar φ) (name : String) (f : φ) :
    (r.insert name f).rejected = r.rejected + [r.reply name].count false := by
  unfold insert reply
  split <;> simp_all

/-! ### Registrations in a row -/

/-- Registers functions one after the other: the replies, and what becomes of the registrar. -/
def insertAll (r : Registrar φ) : List (String × φ) → List Bool × Registrar φ
  | [] => ([], r)
  | (name, f) :: calls =>
    let (replies, r') := (r.insert name f).insertAll calls
    (r.reply name :: replies, r')

/-- The replies to registrations in a row. -/
def replies (r : Registrar φ) (calls : List (String × φ)) : List Bool := (r.insertAll calls).1

/-- The registrar after registrations in a row. -/
def after (r : Registrar φ) (calls : List (String × φ)) : Registrar φ := (r.insertAll calls).2

theorem replies_append (r : Registrar φ) (before later : List (String × φ)) :
    r.replies (before ++ later) = r.replies before ++ (r.after before).replies later := by
  induction before generalizing r with
  | nil => rfl
  | cons call before ih => exact congrArg (_ :: ·) (ih _)

theorem after_append (r : Registrar φ) (before later : List (String × φ)) :
    r.after (before ++ later) = (r.after before).after later := by
  induction before generalizing r with
  | nil => rfl
  | cons call before ih => exact ih _

theorem length_replies (r : Registrar φ) (calls : List (String × φ)) :
    (r.replies calls).length = calls.length := by
  induction calls generalizing r with
  | nil => rfl
  | cons call calls ih => exact congrArg (· + 1) (ih _)

variable (library : String) (calls : List (String × φ))

theorem clean_after : ((new library : Registrar φ).after calls).Clean := by
  induction calls using List.reverseRecOn with
  | nil => exact clean_new library
  | append_singleton calls call ih =>
    rw [after_append]
    exact ih.insert call.1 call.2

/-- The counter counts the refusals. -/
theorem rejected_after : ((new library : Registrar φ).after calls).rejected =
    ((new library).replies calls).count false := by
  induction calls using List.reverseRecOn with
  | nil => rfl
  | append_singleton calls call ih =>
    rw [after_append, replies_append, List.count_append, ← ih]
    exact rejected_insert _ _ _

theorem entries_after_concat (name : String) (f : φ) :
    ((new library).after (calls ++ [(name, f)])).entries =
      if ((new library).after calls).reply name
      then ((new library).after calls).entries ++ [(name, f)]
      else ((new library).after calls).entries := by
  rw [after_append]
  exact entries_insert _ name f

theorem names_after_concat (name : String) (f : φ) :
    ((new library).after (calls ++ [(name, f)])).finish.names =
      if ((new library).after calls).reply name
      then ((new library).after calls).finish.names ++ [name]
      else ((new library).after calls).finish.names := by
  rw [finish, FunctionTable.names, entries_after_concat]
  split <;> simp [finish, FunctionTable.names]

/-- **Names.** The names of the table are the valid ones, each where it was registered first. -/
theorem names_after : ((new library : Registrar φ).after calls).finish.names =
    ((calls.map Prod.fst).filter validName).eraseDups := by
  induction calls using List.reverseRecOn with
  | nil => rfl
  | append_singleton calls call ih =>
    obtain ⟨name, f⟩ := call
    have hreply : ((new library).after calls).reply name = true ↔
        validName name = true ∧ name ∉ (calls.map Prod.fst).filter validName := by
      rw [reply_iff, ih, List.mem_eraseDups]
    rw [names_after_concat, List.map_append, List.filter_append, List.eraseDups_append, ← ih]
    split
    · next h =>
      obtain ⟨hvalid, hnew⟩ := hreply.mp h
      simp [hvalid, List.removeAll, hnew, List.eraseDups_cons]
    · next h =>
      -- nothing is new: the name is not valid, or it is among the others
      have hnone : (List.filter validName [name]).removeAll
          ((calls.map Prod.fst).filter validName) = [] := by
        rw [List.removeAll, List.filter_filter, List.filter_eq_nil_iff]
        intro n hn
        obtain rfl := List.mem_singleton.mp hn
        simpa [and_comm] using fun hvalid hnew => h (hreply.mpr ⟨hvalid, hnew⟩)
      simp [hnone]

/-- **Replies.** A function is taken under a valid name that was not registered before. -/
theorem reply_after_iff {name : String} :
    ((new library : Registrar φ).after calls).reply name = true ↔
      validName name = true ∧ name ∉ calls.map Prod.fst := by
  rw [reply_iff, names_after, List.mem_eraseDups, List.mem_filter]
  exact and_congr_right fun hvalid => not_congr (and_iff_left hvalid)

/-- The names of the table are those of the calls that were accepted. -/
theorem names_after_eq_accepted : ((new library : Registrar φ).after calls).finish.names =
    ((calls.zip ((new library).replies calls)).filter Prod.snd).map fun e => e.1.1 := by
  induction calls using List.reverseRecOn with
  | nil => rfl
  | append_singleton calls call ih =>
    obtain ⟨name, f⟩ := call
    have hlast : ((new library).after calls).replies [(name, f)] =
      [((new library).after calls).reply name] := rfl
    rw [replies_append, List.zip_append (length_replies _ _).symm, List.filter_append,
      List.map_append, ← ih, hlast, names_after_concat]
    split <;> simp_all

/-- **Look-up.** What is found under a name is the function that was registered first. -/
theorem lookup_entries_after (name : String) :
    ((new library : Registrar φ).after calls).entries.lookup name =
      if validName name then calls.lookup name else none := by
  induction calls using List.reverseRecOn with
  | nil => simp [after, insertAll, new]
  | append_singleton calls call ih =>
    obtain ⟨n, f⟩ := call
    have hreply : ((new library).after calls).reply n = true ↔
        validName n = true ∧ calls.lookup n = none := by
      rw [reply_after_iff, Dict.lookup_eq_none_iff]
    rw [entries_after_concat, List.lookup_append]
    by_cases hn : name = n
    · subst hn
      split
      · next h =>
        obtain ⟨hvalid, hnew⟩ := hreply.mp h
        rw [List.lookup_append, ih, if_pos hvalid, if_pos hvalid, hnew]
      · next h =>
        rw [ih]
        refine if_ctx_congr Iff.rfl (fun hvalid => ?_) fun _ => rfl
        obtain ⟨g, hg⟩ := Option.ne_none_iff_exists'.mp fun hnone => h (hreply.mpr ⟨hvalid, hnone⟩)
        rw [hg, Option.some_or]
    · have hother : [(n, f)].lookup name = none := by
        rw [Dict.lookup_eq_none_iff]
        simpa using hn
      split <;> simp [List.lookup_append, hother, ih]

/-- What is found under a name is the function that was registered under it first. -/
theorem get?_after (name : String) : ((new library : Registrar φ).after calls).finish.get? name =
    if validName name then calls.lookup name else none := by
  have hnd : ((new library : Registrar φ).after calls).finish.names.Nodup :=
    (clean_after library calls).1
  rw [FunctionTable.get?_eq_lookup hnd]
  exact lookup_entries_after library calls name

/-- Every call is accepted or counted as refused. -/
theorem size_add_rejected : ((new library : Registrar φ).after calls).finish.size +
    ((new library : Registrar φ).after calls).rejected = calls.length := by
  induction calls using List.reverseRecOn with
  | nil => rfl
  | append_singleton calls call ih =>
    have hone : ∀ r : Registrar φ, (r.insert call.1 call.2).finish.size +
        (r.insert call.1 call.2).rejected = r.finish.size + r.rejected + 1 := by
      intro r
      rw [finish, FunctionTable.size, entries_insert, rejected_insert, finish, FunctionTable.size]
      cases r.reply call.1 <;> simp <;> omega
    rw [List.length_append, ← ih, after_append]
    exact hone _

end Registrar

/-! ### Loaders -/

/-- A loader that registers functions in a row and goes on with the replies. -/
def registerAll (next : List Bool → Program σ .loader) :
    List (String × NativeFunction σ) → Program σ .loader
  | [] => next []
  | (name, f) :: calls =>
    .register name f.argc f.body fun reply =>
      registerAll (fun replies => next (reply :: replies)) calls

/-- The machine when the refusals of registrations in a row have been recorded. -/
def recordAll (r : Registrar (NativeFunction σ)) (vm : Vm σ) :
    List (String × NativeFunction σ) → Vm σ
  | [] => vm
  | (name, f) :: calls =>
    recordAll (r.insert name f) (recordRegistration r.library name (r.verdict name) vm) calls

/-- A loader registers with the registrar of its frame. -/
theorem eval_registerAll (enter : Enter σ) (next : List Bool → Program σ .loader)
    (calls : List (String × NativeFunction σ)) (frame : Frame σ) (vm : Vm σ) :
    (registerAll next calls).eval enter frame vm =
      (next (frame.registrar.replies calls)).eval enter
        { frame with registrar := frame.registrar.after calls }
        (recordAll frame.registrar vm calls) := by
  induction calls generalizing next frame vm with
  | nil => rfl
  | cons call calls ih =>
    obtain ⟨name, f⟩ := call
    rw [registerAll, Program.eval]
    exact ih _ _ _

/-- **The law of registrars.** A loader that registers functions in a row gets the replies of the
registrar of its frame, and leaves it as the sequence does. For every sequence of registrations with
a new registrar:

* a registration is accepted exactly if its name is not empty, does not start with `<` and was not
  asked for by any call before;
* at every point the counter says how many of the calls so far were refused;
* the names of the finished table are those of the accepted calls, in their order, which is the
  order in which valid names were first asked for, without duplicates;
* the functions of the table and the refusals add up to the calls;
* a valid name leads to the function of the first call that has the name, and no other name leads to
  anything. -/
theorem registrar_law (library : String) (calls : List (String × φ)) :
    (∀ (σ : Type) (enter : Enter σ) next functions (frame : Frame σ) (vm : Vm σ),
      (registerAll next functions).eval enter frame vm =
        (next (frame.registrar.replies functions)).eval enter
          { frame with registrar := frame.registrar.after functions }
          (recordAll frame.registrar vm functions)) ∧
    ((Registrar.new library).replies calls).length = calls.length ∧
    (∀ before name f later, calls = before ++ (name, f) :: later →
      ∃ reply, ((Registrar.new library).replies calls)[before.length]? = some reply ∧
        (reply = true ↔ name ≠ "" ∧ (∀ rest, name ≠ "<" ++ rest) ∧ name ∉ before.map Prod.fst)) ∧
    (∀ before later, calls = before ++ later →
      ((Registrar.new library).after before).rejected =
        (((Registrar.new library).replies calls).take before.length).count false) ∧
    ((Registrar.new library).after calls).finish.names =
      ((calls.zip ((Registrar.new library).replies calls)).filter Prod.snd).map (fun e => e.1.1) ∧
    ((Registrar.new library).after calls).finish.names =
      ((calls.map Prod.fst).filter validName).eraseDups ∧
    ((Registrar.new library).after calls).finish.names.Nodup ∧
    ((Registrar.new library).after calls).finish.size +
      ((Registrar.new library).after calls).rejected = calls.length ∧
    ∀ name, ((Registrar.new library).after calls).finish.get? name =
      if validName name then calls.lookup name else none := by
  refine ⟨fun σ enter next functions frame vm => eval_registerAll enter next functions frame vm,
    Registrar.length_replies _ _, ?_, ?_, Registrar.names_after_eq_accepted _ _,
    Registrar.names_after _ _, (Registrar.clean_after _ _).1, Registrar.size_add_rejected _ _,
    Registrar.get?_after _ _⟩
  · rintro before name f later rfl
    refine ⟨((Registrar.new library).after before).reply name, ?_, ?_⟩
    · rw [Registrar.replies_append, ← Registrar.length_replies (Registrar.new library) before,
        List.getElem?_append_right (Nat.le_refl _), Nat.sub_self]
      rfl
    · rw [Registrar.reply_after_iff, validName_iff, and_assoc]
  · rintro before later rfl
    rw [Registrar.rejected_after, Registrar.replies_append,
      ← Registrar.length_replies (Registrar.new library) before, List.take_left']
    rfl

example : (Registrar.new "host").replies [("say", 0), ("<init>", 1), ("", 2), ("say", 3)] =
    [true, false, false, false] := by decide +kernel

end NativeBridge
