import NativeBridge.Proofs.Machine.Lookup

/-!
# Totals under moves

How moves change the total of a weight over the table. Moves of scalars and blocks change only
the weight of scalars and blocks (`Move.total_of_not_registers`).
-/

namespace NativeBridge

open Handle.Table (Addressable Sound)

variable {σ : Type}

namespace Move

variable {x : Holdings σ} {w : Object σ → ℕ}

theorem total_edit {t : Handle.Table (Object σ)} {h : Handle} {b : Heap.Block}
    (hb : t.get? h = some (.block b)) (f : Heap.Block → Heap.Block) (w : Object σ → ℕ) :
    (t.replay (edit t h f)).total w + w (.block b) = t.total w + w (.block (f b)) := by
  rw [edit_of_block hb]
  exact Handle.Table.total_set hb _ w

theorem total_createModule (hs : x.table.Sound) {name : String}
    (hf : (apply x (.createModule name)).table.Addressable) (w : Object σ → ℕ) :
    (apply x (.createModule name)).table.total w =
      x.table.total w + w (.module ⟨name, .empty, newInit x.table name⟩) +
        w (.function (initFunction (newModule x.table name))) := by
  have hm := get?_newModule hs hf
  rw [table_createModule] at hf ⊢
  rw [Addressable, Handle.Table.size_set] at hf
  have hf₁ : (x.table.insert (blankModule name)).2.Addressable :=
    Nat.le_trans (Handle.Table.size_le_size_insert _ _) hf
  have hs₁ := Handle.Table.sound_insert hs hf₁
  -- the blank module is replaced by one that has its top-level code
  have hset := Handle.Table.total_set hm (.module ⟨name, .empty, newInit x.table name⟩) w
  rw [Handle.Table.total_insert hs₁ hf, Handle.Table.total_insert hs hf₁] at hset
  omega

theorem total_addFunction (hs : x.table.Sound) {module : Handle} {m : Module}
    (hm : x.table.get? module = some (.module m)) {name : String} {argc : UInt64} {body : Body σ}
    (hf : (apply x (.addFunction module name argc body)).table.Addressable) (w : Object σ → ℕ) :
    (apply x (.addFunction module name argc body)).table.total w + w (.module m) =
      x.table.total w + w (.function ⟨name, module, argc, body⟩) +
        w (.module { m with
          functions := m.functions.set name (newFunction x.table module name argc body) }) := by
  have hf₁ : (x.table.insert (.function ⟨name, module, argc, body⟩)).2.Addressable :=
    Addressable.of_replay (t := (x.table.insert (.function ⟨name, module, argc, body⟩)).2) hf
  rw [table_apply, changes_addFunction hs hm hf]
  have hset := Handle.Table.total_set (get?_module_insert hs hm hf).1 (.module { m with
    functions := m.functions.set name (newFunction x.table module name argc body) }) w
  rw [Handle.Table.total_insert hs hf₁] at hset
  exact hset

/-- The move adds a module or a function. -/
def Registers : Move σ → Prop
  | createModule _ => True
  | addFunction _ _ _ _ => True
  | _ => False

/-- A weight of nothing but modules and functions changes only when some are added. -/
theorem total_of_not_registers {m : Move σ} (hs : x.table.Sound) (hm : m.Allowed x)
    (hf : (m.apply x).table.Addressable) (hr : ¬ m.Registers) (hscalar : ∀ s, w (.scalar s) = 0)
    (hblock : ∀ b, w (.block b) = 0) : (m.apply x).table.total w = x.table.total w := by
  have hedit : ∀ (h : Handle) (b : Heap.Block) (f : Heap.Block → Heap.Block),
      x.table.get? h = some (.block b) → (x.table.replay (edit x.table h f)).total w =
        x.table.total w := by
    intro h b f hb
    have htotal := total_edit hb f w
    rw [hblock, hblock] at htotal
    exact htotal
  cases m with
  | mint id s => exact (Handle.Table.total_insert hs hf w).trans (by rw [hscalar]; rfl)
  | alloc size => exact (Handle.Table.total_insert hs hf w).trans (by rw [hblock]; rfl)
  | release h =>
    obtain ⟨s, hg⟩ := hm
    have htotal := Handle.Table.total_remove hs hg w
    rw [hscalar] at htotal
    exact htotal
  | free h =>
    obtain ⟨b, hg⟩ := hm
    have htotal := Handle.Table.total_remove hs hg w
    rw [hblock] at htotal
    exact htotal
  | resize h size =>
    obtain ⟨-, b, hb, -⟩ := hm
    exact hedit h b _ hb
  | write h offset value =>
    obtain ⟨-, b, c, hb, -⟩ := hm
    exact hedit h b _ hb
  | protect h offset p =>
    obtain ⟨b, c, hb, -⟩ := hm
    exact hedit h b _ hb
  | createModule name => exact absurd trivial hr
  | addFunction module name argc body => exact absurd trivial hr
  | openScope site => rfl
  | closeScope id => rfl

end Move

end NativeBridge
