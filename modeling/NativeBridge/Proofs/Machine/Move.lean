import NativeBridge.Proofs.Table.Total
import NativeBridge.Vm.Perform

/-!
# Moves

What a machine *holds* is its table, its modules by name, its heap counters and its open scopes.
All operations change the holdings by a few elementary *moves*, each of which has a condition
under which the machine makes it (`Move.Allowed`). A property of the holdings that every allowed
move keeps is kept by all operations (`Moves.inv`).

A move changes the table by insertions, replacements and removals (`Move.changes`), so that
histories of tables are histories of moves. No replacement turns an object into another one
(`Move.keeps_changes`).
-/

namespace NativeBridge

open Handle (Change)

open Handle.Table (Addressable Sound)

/-- Changes the cell at an offset within bounds. -/
def Heap.Block.modifyCell (b : Heap.Block) (offset : UInt64) (f : Heap.Cell → Heap.Cell) :
    Heap.Block :=
  match b.cell? offset with
  | some c => b.setCell offset (f c)
  | none => b

theorem Heap.Block.cell?_modifyCell (b : Heap.Block) (offset i : UInt64)
    (f : Heap.Cell → Heap.Cell) :
    (b.modifyCell offset f).cell? i = if i = offset then (b.cell? i).map f else b.cell? i := by
  unfold modifyCell
  split
  · next c hc =>
    rw [cell?_setCell]
    split
    · next hi => rw [hi, hc]; rfl
    · rfl
  · next hc =>
    split
    · next hi => rw [hi, hc]; rfl
    · rfl

@[simp] theorem Heap.Block.size_modifyCell (b : Heap.Block) (offset : UInt64)
    (f : Heap.Cell → Heap.Cell) : (b.modifyCell offset f).size = b.size := by
  unfold modifyCell
  split <;> simp

variable {σ : Type}

/-- What a machine holds, with the budget for it. -/
structure Holdings (σ : Type) where
  /-- The slots that all blocks may have together. -/
  budget : UInt64
  table : Handle.Table (Object σ)
  modules : Dict String Handle
  heap : Heap.Stats
  scopes : Dict ScopeId Scope
  scopesOpened : ℕ

/-- The holdings of a machine. -/
def Vm.holdings (vm : Vm σ) : Holdings σ :=
  ⟨vm.options.maxHeapSlots, vm.table, vm.modules, vm.heap, vm.scopes, vm.scopesOpened⟩

/-- The elementary changes of holdings. -/
inductive Move (σ : Type) where
  /-- A scalar is stored and enters the locals of a scope. -/
  | mint (id : ScopeId) (s : Scalar)
  /-- A scalar is removed. -/
  | release (h : Handle)
  | alloc (size : UInt64)
  | free (h : Handle)
  | resize (h : Handle) (size : UInt64)
  | write (h : Handle) (offset : UInt64) (value : Option Value)
  | protect (h : Handle) (offset : UInt64) (protection : Heap.Protection)
  /-- A module is added, with the function of its top-level code. -/
  | createModule (name : String)
  | addFunction (module : Handle) (name : String) (argc : UInt64) (body : Body σ)
  | openScope (site : Site)
  /-- A scope is closed whose scalars have been released. -/
  | closeScope (id : ScopeId)

/-- What a cell may hold: nothing, a scalar, or a reference to something that is not a scalar. -/
def Storable (t : Handle.Table (Object σ)) : Option Value → Prop
  | none => True
  | some .null => False
  | some (.scalar _) => True
  | some (.ref h) => ∃ o, t.get? h = some o ∧ ∀ s, o ≠ .scalar s

/-- The function that owns the top-level code of a module. -/
def initFunction (module : Handle) : Function σ :=
  ⟨Vm.initName, module, 0, .script fun _ => .done (r := .script) (Except.ok none)⟩

namespace Move

/-- Puts a block in the place of the one that `h` addresses. -/
def edit (t : Handle.Table (Object σ)) (h : Handle) (f : Heap.Block → Heap.Block) :
    List (Change (Object σ)) :=
  match t.get? h with
  | some (.block b) => [.set h (.block (f b))]
  | _ => []

/-- How a move changes a table. -/
def changes (t : Handle.Table (Object σ)) : Move σ → List (Change (Object σ))
  | mint _ s => [.insert (.scalar s)]
  | release h => [.remove h]
  | alloc size => [.insert (.block (.ofSize size))]
  | free h => [.remove h]
  | resize h size => edit t h fun b => b.resize size
  | write h offset value => edit t h fun b => b.modifyCell offset fun c => { c with value := value }
  | protect h offset protection =>
    edit t h fun b => b.modifyCell offset fun c => { c with protection := protection }
  | createModule name =>
    let (module, t) := t.insert (.module ⟨name, .empty, Handle.null⟩)
    let (init, _) := t.insert (.function (initFunction module))
    [.insert (.module ⟨name, .empty, Handle.null⟩), .insert (.function (initFunction module)),
      .set module (.module ⟨name, .empty, init⟩)]
  | addFunction module name argc body =>
    let (function, t) := t.insert (.function ⟨name, module, argc, body⟩)
    .insert (.function ⟨name, module, argc, body⟩) ::
      match t.get? module with
      | some (.module m) =>
        [.set module (.module { m with functions := m.functions.set name function })]
      | _ => []
  | openScope _ => []
  | closeScope _ => []

/-- The heap counters after a move. -/
def heap (x : Holdings σ) : Move σ → Heap.Stats
  | alloc size => ⟨x.heap.liveBlocks + 1, x.heap.usedSlots + size⟩
  | free h =>
    match x.table.get? h with
    | some (.block b) => ⟨x.heap.liveBlocks - 1, x.heap.usedSlots - b.size⟩
    | _ => x.heap
  | resize h size =>
    match x.table.get? h with
    | some (.block b) => ⟨x.heap.liveBlocks, x.heap.usedSlots - b.size + size⟩
    | _ => x.heap
  | _ => x.heap

/-- The modules by name after a move. -/
def modules (x : Holdings σ) : Move σ → Dict String Handle
  | createModule name =>
    x.modules.set name (x.table.insert (.module ⟨name, .empty, Handle.null⟩)).1
  | _ => x.modules

/-- The open scopes after a move. -/
def scopes (x : Holdings σ) : Move σ → Dict ScopeId Scope
  | mint id s =>
    match x.scopes.get? id with
    | some scope =>
      x.scopes.set id { scope with locals := scope.locals ++ [(x.table.insert (.scalar s)).1] }
    | none => x.scopes
  | openScope site => x.scopes.set ⟨x.scopesOpened⟩ ⟨site.module, site.function, []⟩
  | closeScope id => x.scopes.erase id
  | _ => x.scopes

/-- The number of scopes opened up to a move. -/
def scopesOpened (x : Holdings σ) : Move σ → ℕ
  | openScope _ => x.scopesOpened + 1
  | _ => x.scopesOpened

/-- The holdings after a move. -/
def apply (x : Holdings σ) (m : Move σ) : Holdings σ :=
  ⟨x.budget, x.table.replay (m.changes x.table), m.modules x, m.heap x, m.scopes x,
    m.scopesOpened x⟩

/-- When a machine makes a move. -/
def Allowed (x : Holdings σ) : Move σ → Prop
  | mint id _ => ∃ scope, x.scopes.get? id = some scope
  | release h => ∃ s, x.table.get? h = some (.scalar s)
  | alloc size => x.heap.usedSlots.toNat + size.toNat ≤ x.budget.toNat
  | free h => ∃ b, x.table.get? h = some (.block b)
  | resize h size => size ≠ 0 ∧ ∃ b, x.table.get? h = some (.block b) ∧
      (b.size < size → x.heap.usedSlots.toNat + (size - b.size).toNat ≤ x.budget.toNat)
  | write h offset value => Storable x.table value ∧ ∃ b c, x.table.get? h = some (.block b) ∧
      b.cell? offset = some c ∧ c.protection.write = false
  | protect h offset _ => ∃ b c, x.table.get? h = some (.block b) ∧ b.cell? offset = some c
  | createModule name => validName name ∧ x.modules.get? name = none
  | addFunction module name _ _ => validName name ∧
      ∃ m, x.table.get? module = some (.module m) ∧ m.functions.get? name = none
  | openScope _ => True
  | closeScope id => ∀ scope, x.scopes.get? id = some scope →
      ∀ h ∈ scope.locals, ∀ s, x.table.get? h ≠ some (.scalar s)

@[simp] theorem table_apply (x : Holdings σ) (m : Move σ) :
    (m.apply x).table = x.table.replay (m.changes x.table) := rfl

@[simp] theorem budget_apply (x : Holdings σ) (m : Move σ) : (m.apply x).budget = x.budget := rfl

end Move

/-- The holdings after moves, in order. -/
def Holdings.after (x : Holdings σ) (ms : List (Move σ)) : Holdings σ := ms.foldl Move.apply x

@[simp] theorem Holdings.after_nil (x : Holdings σ) : x.after [] = x := rfl

@[simp] theorem Holdings.after_cons (x : Holdings σ) (m : Move σ) (ms : List (Move σ)) :
    x.after (m :: ms) = (m.apply x).after ms := rfl

theorem Holdings.after_append (x : Holdings σ) (ms ns : List (Move σ)) :
    x.after (ms ++ ns) = (x.after ms).after ns := List.foldl_append

/-- How moves change the table, in order. -/
def Holdings.changes (x : Holdings σ) : List (Move σ) → List (Change (Object σ))
  | [] => []
  | m :: ms => m.changes x.table ++ (m.apply x).changes ms

theorem Holdings.changes_append (x : Holdings σ) (ms ns : List (Move σ)) :
    x.changes (ms ++ ns) = x.changes ms ++ (x.after ms).changes ns := by
  induction ms generalizing x with
  | nil => rfl
  | cons m ms ih => simp [changes, ih]

theorem Holdings.table_after (x : Holdings σ) (ms : List (Move σ)) :
    (x.after ms).table = x.table.replay (x.changes ms) := by
  induction ms generalizing x with
  | nil => rfl
  | cons m ms ih => rw [after_cons, ih, changes, Handle.Table.replay_append, Move.table_apply]

theorem Holdings.addressable_of_after {x : Holdings σ} {ms : List (Move σ)}
    (hf : (x.after ms).table.Addressable) : x.table.Addressable := by
  rw [table_after] at hf
  exact hf.of_replay

/-- The machine makes all of these moves, in order. -/
def Moves (x : Holdings σ) : List (Move σ) → Prop
  | [] => True
  | m :: ms => m.Allowed x ∧ Moves (m.apply x) ms

@[simp] theorem Moves.nil (x : Holdings σ) : Moves x [] := trivial

theorem Moves.append {x : Holdings σ} {ms ns : List (Move σ)} :
    Moves x (ms ++ ns) ↔ Moves x ms ∧ Moves (x.after ms) ns := by
  induction ms generalizing x with
  | nil => simp
  | cons m ms ih => simp [Moves, ih, and_assoc]

/-- **Invariants of moves.** What every allowed move of sound holdings keeps, is kept by all. -/
theorem Moves.inv {I : Holdings σ → Prop} {x : Holdings σ} {ms : List (Move σ)}
    (hm : Moves x ms) (hs : x.table.Sound) (hf : (x.after ms).table.Addressable)
    (hstep : ∀ y m, y.table.Sound → Move.Allowed y m → (m.apply y).table.Addressable → I y →
      I (m.apply y)) (hi : I x) : I (x.after ms) := by
  induction ms generalizing x with
  | nil => exact hi
  | cons m ms ih =>
    have hf' := Holdings.addressable_of_after (x := m.apply x) hf
    exact ih hm.2 (Handle.Table.sound_replay hs hf') hf (hstep x m hs hm.1 hf' hi)

end NativeBridge
