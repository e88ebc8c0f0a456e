import NativeBridge.Proofs.Machine.Move

/-!
# Look-up after moves

What handles address after each kind of move, and which handles are issued. The moves that add
modules and functions are made of several changes of the table; here they get one law each.
-/

namespace NativeBridge

open Handle (Change)

open Handle.Table (Addressable Sound)

variable {σ : Type} {x : Holdings σ}

namespace Move

/-! ### Single changes -/

theorem get?_mint (hs : x.table.Sound) {id : ScopeId} {s : Scalar}
    (hf : (apply x (.mint id s)).table.Addressable) (k : Handle) :
    (apply x (.mint id s)).table.get? k =
      if k = (x.table.insert (.scalar s)).1 then some (.scalar s) else x.table.get? k :=
  Handle.Table.get?_insert hs hf k

theorem get?_alloc (hs : x.table.Sound) {size : UInt64}
    (hf : (apply x (.alloc size)).table.Addressable) (k : Handle) :
    (apply x (.alloc size)).table.get? k =
      if k = (x.table.insert (.block (.ofSize size))).1 then some (.block (.ofSize size))
      else x.table.get? k :=
  Handle.Table.get?_insert hs hf k

theorem get?_release (hs : x.table.Sound) (h k : Handle) :
    (apply x (.release h)).table.get? k = if k = h then none else x.table.get? k :=
  Handle.Table.get?_remove hs h k

theorem get?_free (hs : x.table.Sound) (h k : Handle) :
    (apply x (.free h)).table.get? k = if k = h then none else x.table.get? k :=
  Handle.Table.get?_remove hs h k

theorem edit_of_block {t : Handle.Table (Object σ)} {h : Handle} {b : Heap.Block}
    (hb : t.get? h = some (.block b)) (f : Heap.Block → Heap.Block) :
    edit t h f = [.set h (.block (f b))] := by
  simp [edit, hb]

theorem get?_edit {t : Handle.Table (Object σ)} {h : Handle} {b : Heap.Block}
    (hb : t.get? h = some (.block b)) (f : Heap.Block → Heap.Block) (k : Handle) :
    (t.replay (edit t h f)).get? k = if k = h then some (.block (f b)) else t.get? k := by
  rw [edit_of_block hb, Handle.Table.replay_cons, Handle.Table.replay_nil, Handle.Table.apply,
    Handle.Table.get?_set, hb]
  rfl

theorem get?_resize {h : Handle} {b : Heap.Block}
    (hb : x.table.get? h = some (.block b)) (size : UInt64) (k : Handle) :
    (apply x (.resize h size)).table.get? k =
      if k = h then some (.block (b.resize size)) else x.table.get? k :=
  get?_edit hb (fun b => b.resize size) k

theorem get?_write {h : Handle} {b : Heap.Block}
    (hb : x.table.get? h = some (.block b)) (offset : UInt64) (value : Option Value) (k : Handle) :
    (apply x (.write h offset value)).table.get? k =
      if k = h then some (.block (b.modifyCell offset fun c => { c with value := value }))
      else x.table.get? k :=
  get?_edit hb (fun b => b.modifyCell offset fun c => { c with value := value }) k

theorem get?_protect {h : Handle} {b : Heap.Block}
    (hb : x.table.get? h = some (.block b)) (offset : UInt64) (p : Heap.Protection) (k : Handle) :
    (apply x (.protect h offset p)).table.get? k =
      if k = h then some (.block (b.modifyCell offset fun c => { c with protection := p }))
      else x.table.get? k :=
  get?_edit hb (fun b => b.modifyCell offset fun c => { c with protection := p }) k

/-! ### Modules and functions -/

/-- The module that is added under a name, before it has its top-level code. -/
def blankModule (name : String) : Object σ := .module ⟨name, .empty, Handle.null⟩

/-- The handle of the module that is added under a name. -/
def newModule (t : Handle.Table (Object σ)) (name : String) : Handle :=
  (t.insert (blankModule name)).1

/-- The handle of the function of its top-level code. -/
def newInit (t : Handle.Table (Object σ)) (name : String) : Handle :=
  ((t.insert (blankModule name)).2.insert (.function (initFunction (newModule t name)))).1

theorem table_createModule (x : Holdings σ) (name : String) :
    (apply x (.createModule name)).table =
      ((x.table.insert (blankModule name)).2.insert
        (.function (initFunction (newModule x.table name)))).2.set (newModule x.table name)
          (.module ⟨name, .empty, newInit x.table name⟩) := rfl

/-- The new module is still blank when the function of its top-level code is added. -/
theorem get?_newModule (hs : x.table.Sound) {name : String}
    (hf : (apply x (.createModule name)).table.Addressable) :
    ((x.table.insert (blankModule name)).2.insert
      (.function (initFunction (newModule x.table name)))).2.get? (newModule x.table name) =
        some (blankModule name) := by
  rw [table_createModule, Addressable, Handle.Table.size_set] at hf
  have hf₁ : (x.table.insert (blankModule name)).2.Addressable :=
    Nat.le_trans (Handle.Table.size_le_size_insert _ _) hf
  have hs₁ := Handle.Table.sound_insert hs hf₁
  -- the second insertion mints a handle that the first one has not
  have hne : newModule x.table name ≠ newInit x.table name := fun e =>
    Handle.Table.not_issued_insert hs₁ hf
      ((Handle.Table.issued_insert hs hf₁ _).mpr (.inl e.symm))
  rw [Handle.Table.get?_insert hs₁ hf]
  exact (if_neg hne).trans (Handle.Table.get?_insert_self hs hf₁)

/-- **Creation of modules.** The handles of the new module and of the function of its top-level
code were never issued, and all others address what they did. -/
theorem get?_createModule (hs : x.table.Sound) {name : String}
    (hf : (apply x (.createModule name)).table.Addressable) :
    ¬ x.table.Issued (newModule x.table name) ∧ ¬ x.table.Issued (newInit x.table name) ∧
      newInit x.table name ≠ newModule x.table name ∧
      (∀ k, (apply x (.createModule name)).table.Issued k ↔
        k = newInit x.table name ∨ k = newModule x.table name ∨ x.table.Issued k) ∧
      ∀ k, (apply x (.createModule name)).table.get? k =
        if k = newModule x.table name then some (.module ⟨name, .empty, newInit x.table name⟩)
        else if k = newInit x.table name then
          some (.function (initFunction (newModule x.table name)))
        else x.table.get? k := by
  have hm := get?_newModule hs hf
  rw [table_createModule] at hf ⊢
  rw [Addressable, Handle.Table.size_set] at hf
  have hf₁ : (x.table.insert (blankModule name)).2.Addressable :=
    Nat.le_trans (Handle.Table.size_le_size_insert _ _) hf
  have hs₁ := Handle.Table.sound_insert hs hf₁
  have hs₂ := Handle.Table.sound_insert hs₁ hf
  have hnew := Handle.Table.not_issued_insert hs hf₁
  have hissued := Handle.Table.issued_insert hs hf₁
  have hinit := Handle.Table.not_issued_insert hs₁ hf
  have hne : newInit x.table name ≠ newModule x.table name := fun e =>
    hinit ((hissued _).mpr (.inl e))
  refine ⟨hnew, fun hold => hinit ((hissued _).mpr (.inr hold)), hne, fun k => ?_, fun k => ?_⟩
  · rw [Handle.Table.issued_set hs₂, Handle.Table.issued_insert hs₁ hf, hissued]
    rfl
  · rw [Handle.Table.get?_set, hm, Handle.Table.get?_insert hs₁ hf,
      Handle.Table.get?_insert hs hf₁]
    by_cases hk : k = newModule x.table name
    · rw [if_pos hk, if_pos hk]
      rfl
    · rw [if_neg hk, if_neg hk]
      exact if_congr Iff.rfl rfl (if_neg hk)

/-- The handle of the function that is added to a module. -/
def newFunction (t : Handle.Table (Object σ)) (module : Handle) (name : String) (argc : UInt64)
    (body : Body σ) : Handle :=
  (t.insert (.function ⟨name, module, argc, body⟩)).1

/-- The module of a function is still there when the function is added. -/
theorem get?_module_insert (hs : x.table.Sound) {module : Handle} {m : Module}
    (hm : x.table.get? module = some (.module m)) {name : String} {argc : UInt64} {body : Body σ}
    (hf : (apply x (.addFunction module name argc body)).table.Addressable) :
    (x.table.insert (.function ⟨name, module, argc, body⟩)).2.get? module = some (.module m) ∧
      module ≠ newFunction x.table module name argc body := by
  have hf₁ : (x.table.insert (.function ⟨name, module, argc, body⟩)).2.Addressable :=
    Addressable.of_replay (t := (x.table.insert (.function ⟨name, module, argc, body⟩)).2) hf
  have hne : module ≠ newFunction x.table module name argc body := by
    intro e
    have hissued := Handle.Table.issued_of_get? hs hm
    rw [e] at hissued
    exact Handle.Table.not_issued_insert hs hf₁ hissued
  refine ⟨?_, hne⟩
  rw [Handle.Table.get?_insert hs hf₁]
  exact (if_neg hne).trans hm

theorem changes_addFunction (hs : x.table.Sound) {module : Handle} {m : Module}
    (hm : x.table.get? module = some (.module m)) {name : String} {argc : UInt64} {body : Body σ}
    (hf : (apply x (.addFunction module name argc body)).table.Addressable) :
    changes x.table (.addFunction module name argc body) =
      [.insert (.function ⟨name, module, argc, body⟩),
        .set module (.module { m with
          functions := m.functions.set name (newFunction x.table module name argc body) })] := by
  simp [changes, (get?_module_insert hs hm hf).1, newFunction]

/-- **Addition of functions.** The handle of the new function was never issued, its module has
it under its name, and all other handles address what they did. -/
theorem get?_addFunction (hs : x.table.Sound) {module : Handle} {m : Module}
    (hm : x.table.get? module = some (.module m)) {name : String} {argc : UInt64} {body : Body σ}
    (hf : (apply x (.addFunction module name argc body)).table.Addressable) :
    ¬ x.table.Issued (newFunction x.table module name argc body) ∧
      (∀ k, (apply x (.addFunction module name argc body)).table.Issued k ↔
        k = newFunction x.table module name argc body ∨ x.table.Issued k) ∧
      ∀ k, (apply x (.addFunction module name argc body)).table.get? k =
        if k = module then
          some (.module { m with
            functions := m.functions.set name (newFunction x.table module name argc body) })
        else if k = newFunction x.table module name argc body then
          some (.function ⟨name, module, argc, body⟩)
        else x.table.get? k := by
  have hf₁ : (x.table.insert (.function ⟨name, module, argc, body⟩)).2.Addressable :=
    Addressable.of_replay (t := (x.table.insert (.function ⟨name, module, argc, body⟩)).2) hf
  have hs₁ := Handle.Table.sound_insert hs hf₁
  rw [table_apply, changes_addFunction hs hm hf, Handle.Table.replay_cons,
    Handle.Table.replay_cons, Handle.Table.replay_nil, Handle.Table.apply, Handle.Table.apply]
  refine ⟨Handle.Table.not_issued_insert hs hf₁, fun k => ?_, fun k => ?_⟩
  · rw [Handle.Table.issued_set hs₁, Handle.Table.issued_insert hs hf₁]
    rfl
  · rw [Handle.Table.get?_set, (get?_module_insert hs hm hf).1, Handle.Table.get?_insert hs hf₁]
    rfl

end Move

end NativeBridge
