import EntityGraph.Proofs.Tree.Grouping
import EntityGraph.Tree.Nesting

/-!
# Trees and the rows they fan out to

A tree has what a layout has places for: a node has a key, values at the slots of scalars, and
further nodes behind links. A join repeats a node for every combination of what stands behind its
links, so the rows of a node are the product over its slots of the rows of what stands there, and
one stretch of nulls stands for no nodes.
-/
namespace EntityGraph

open Nesting

/-! ## Trees -/

mutual

/-- A node: its key, and what stands at its slots in their order. -/
inductive Tree where
  | node (key : List Value) (branches : List Branch)

/-- What stands at a slot: a value, or the nodes behind a link in their order. -/
inductive Branch where
  | value (v : Value)
  | nodes (children : List Tree)

end

namespace Tree

def key : Tree → List Value
  | .node key _ => key

def branches : Tree → List Branch
  | .node _ branches => branches

end Tree

namespace Slot

mutual

/-- Whether a branch can stand at a slot. Every node has a key that is not null throughout, and
different nodes behind one link have different keys. -/
def Bears : Slot → Branch → Prop
  | .scalar _, .value _ => True
  | .nested keys slots, .nodes children => (children.map Tree.key).Nodup ∧
    ∀ child ∈ children, child.key.length = keys.length ∧ child.key.all Value.isNull = false ∧
      AllBear slots child.branches
  | _, _ => False

def AllBear : List (String × Slot) → List Branch → Prop
  | [], [] => True
  | (_, slot) :: rest, branch :: more => slot.Bears branch ∧ AllBear rest more
  | _, _ => False

end

mutual

/-- Whether levels have columns by which their rows are told apart. -/
def Keyed : Slot → Prop
  | .scalar _ => True
  | .nested keys slots => keys ≠ [] ∧ AllKeyed slots

def AllKeyed : List (String × Slot) → Prop
  | [] => True
  | (_, slot) :: rest => slot.Keyed ∧ AllKeyed rest

end

mutual

/-- Whether a slot is for the field of its name: for a scalar, or for what a link leads to. -/
def Names (m : Model) (e : Entity m.size) (name : String) : Slot → Prop
  | .scalar _ => ∃ f s, e.field? name = some f ∧ f.store = .scalar s
  | .nested _ slots => ∃ f link, e.field? name = some f ∧ f.store = .link link ∧
    AllName m (m.get link.target) slots

def AllName (m : Model) (e : Entity m.size) : List (String × Slot) → Prop
  | [] => True
  | (name, slot) :: rest => slot.Names m e name ∧ AllName m e rest

end

mutual

/-- Whether the values of a branch have documents, and no more than one node stands behind a link
to one. -/
def Readable (m : Model) (e : Entity m.size) (name : String) : Slot → Branch → Prop
  | .scalar _, .value v => ∀ f s, e.field? name = some f → f.store = .scalar s →
    ∃ doc, s.decode v = .ok doc
  | .nested _ slots, .nodes children => ∀ f link, e.field? name = some f →
    f.store = .link link → (link.cardinality.toMany = false → children.length ≤ 1) ∧
      ∀ child ∈ children, AllReadable m (m.get link.target) slots child.branches
  | _, _ => True

def AllReadable (m : Model) (e : Entity m.size) : List (String × Slot) → List Branch → Prop
  | (name, slot) :: rest, branch :: more =>
    slot.Readable m e name branch ∧ AllReadable m e rest more
  | _, _ => True

end

section

variable {m : Model} {e : Entity m.size} {name : String} {f : Field m.size}
  (found : e.field? name = some f)
include found

theorem Readable.value {s : Scalar} (store : f.store = .scalar s) {column : Nat} {v : Value}
    {doc : Json} (ok : s.decode v = .ok doc) :
    (Slot.scalar column).Readable m e name (.value v) := by
  intro f' s' found' store'
  obtain rfl := Option.some.inj (found.symm.trans found')
  obtain rfl := FieldStore.scalar.inj (store.symm.trans store')
  exact ⟨doc, ok⟩

theorem Readable.nodes {link : Link m.size} (store : f.store = .link link) {keys : List Nat}
    {slots : List (String × Slot)} {children : List Tree}
    (one : link.cardinality.toMany = false → children.length ≤ 1)
    (each : ∀ child ∈ children, AllReadable m (m.get link.target) slots child.branches) :
    (Slot.nested keys slots).Readable m e name (.nodes children) := by
  intro f' link' found' store'
  obtain rfl := Option.some.inj (found.symm.trans found')
  obtain rfl := FieldStore.link.inj (store.symm.trans store')
  exact ⟨one, each⟩

end

mutual

/-- What is shown of a branch: the document of a value; the nodes behind a link to many, in their
order; and behind a link to one the node, or null if there is none. -/
def ShownAs (m : Model) (e : Entity m.size) (name : String) : Slot → Branch → Json → Prop
  | .scalar _, .value v, doc => ∃ f s, e.field? name = some f ∧ f.store = .scalar s ∧
    s.decode v = .ok doc
  | .nested _ slots, .nodes children, doc => ∃ f link nodes, e.field? name = some f ∧
    f.store = .link link ∧
    List.Forall₂ (fun child node => AllShownAs m (m.get link.target) slots child.branches node)
      children nodes ∧
    doc = if link.cardinality.toMany then .array (nodes.map Json.object)
      else nodes.head?.elim .null Json.object
  | _, _, _ => False

/-- What is shown of a node: a member for each of its slots, in their order. -/
def AllShownAs (m : Model) (e : Entity m.size) :
    List (String × Slot) → List Branch → List (String × Json) → Prop
  | [], [], [] => True
  | (name, slot) :: rest, branch :: more, member :: others =>
    member.1 = name ∧ slot.ShownAs m e name branch member.2 ∧ AllShownAs m e rest more others
  | _, _, _ => False

end

mutual

/-- The columns of a slot and of all that is below it. -/
def columns : Slot → List Nat
  | .scalar column => [column]
  | .nested keys slots => keys ++ allColumns slots

def allColumns : List (String × Slot) → List Nat
  | [] => []
  | (_, slot) :: rest => slot.columns ++ allColumns rest

end

end Slot

/-! ## Rows -/

/-- A part of a row: values in some of its columns. -/
abbrev Cells := List (Nat × Value)

namespace Cells

def valueAt (cells : Cells) (column : Nat) : Value :=
  (cells.lookup column).getD .null

def values (columns : List Nat) (cells : Cells) : List Value :=
  columns.map (valueAt cells)

/-- The row of a width, which is null where the part says nothing. -/
def row (width : Nat) (cells : Cells) : Row :=
  (List.range width).map (valueAt cells)

end Cells

namespace Slot

mutual

/-- The rows of what stands at a slot, in its columns: those of the nodes one after the other, or
one that is null throughout. -/
def parts : Slot → Branch → List Cells
  | .scalar column, .value v => [[(column, v)]]
  | .nested keys slots, .nodes children =>
    if children.isEmpty then [[]]
    else children.flatMap fun child =>
      (allParts slots child.branches).map (keys.zip child.key ++ ·)
  | _, _ => [[]]

/-- The product over the slots of a node. -/
def allParts : List (String × Slot) → List Branch → List Cells
  | (_, slot) :: rest, branch :: more =>
    (slot.parts branch).flatMap fun part => (allParts rest more).map (part ++ ·)
  | _, _ => [[]]

end

end Slot

/-- The rows of a node, in the columns of its layout. -/
def Tree.parts (keys : List Nat) (slots : List (String × Slot)) (tree : Tree) : List Cells :=
  (Slot.allParts slots tree.branches).map (keys.zip tree.key ++ ·)

/-- The result for trees, each with its cursor: the rows of one after those of the other. -/
def fannedOut (columns : List String) (forest : List (List Value × Tree)) : RowSet where
  columns := columns
  rows := forest.flatMap fun (cursor, tree) =>
    (tree.parts (Layout.ofColumns columns).keys (Layout.ofColumns columns).slots).map fun part =>
      Cells.row columns.length ((Layout.cursorColumns columns).zip cursor ++ part)

/-! ## Reading parts of rows -/

namespace Cells

variable {cells more : Cells} {column : Nat}

theorem valueAt_append_left (absent : column ∉ more.map Prod.fst) :
    Cells.valueAt (cells ++ more) column = valueAt cells column := by
  have none : more.lookup column = none := by
    rw [List.lookup_eq_none_iff]
    intro c mem
    simpa using fun same : column = c.1 => absent (same ▸ List.mem_map_of_mem mem)
  rw [Cells.valueAt, Cells.valueAt, List.lookup_append, none, Option.or_none]

theorem valueAt_append_right (absent : column ∉ cells.map Prod.fst) :
    Cells.valueAt (cells ++ more) column = valueAt more column := by
  have none : cells.lookup column = none := by
    rw [List.lookup_eq_none_iff]
    intro c mem
    simpa using fun same : column = c.1 => absent (same ▸ List.mem_map_of_mem mem)
  rw [Cells.valueAt, Cells.valueAt, List.lookup_append, none, Option.none_or]

theorem values_append_left {columns : List Nat}
    (absent : ∀ c ∈ columns, c ∉ more.map Prod.fst) :
    values columns (cells ++ more) = values columns cells :=
  List.map_congr_left fun c mem => valueAt_append_left (absent c mem)

theorem values_append_right {columns : List Nat}
    (absent : ∀ c ∈ columns, c ∉ cells.map Prod.fst) :
    values columns (cells ++ more) = values columns more :=
  List.map_congr_left fun c mem => valueAt_append_right (absent c mem)

/-- Values that are put in distinct columns are found there. -/
theorem values_zip {columns : List Nat} {vs : List Value} (distinct : columns.Nodup)
    (length : vs.length = columns.length) : values columns (columns.zip vs ++ more) = vs := by
  induction columns generalizing vs with
  | nil =>
    obtain rfl := List.length_eq_zero_iff.mp length
    rfl
  | cons c columns ih =>
    obtain ⟨v, vs, rfl⟩ := List.exists_cons_of_length_eq_add_one length
    obtain ⟨fresh, rest⟩ := List.nodup_cons.mp distinct
    have first : Cells.valueAt ((c, v) :: (columns.zip vs ++ more)) c = v := by
      simp [Cells.valueAt]
    have others : ∀ c' ∈ columns, Cells.valueAt ((c, v) :: (columns.zip vs ++ more)) c' =
        Cells.valueAt (columns.zip vs ++ more) c' := by
      intro c' mem
      have other : (c' == c) = false := beq_eq_false_iff_ne.mpr fun same => fresh (same ▸ mem)
      simp only [Cells.valueAt, List.lookup_cons, other]
    rw [List.zip_cons_cons, List.cons_append, values, List.map_cons, first,
      List.map_congr_left others]
    exact congrArg (v :: ·) (ih rest (by simpa using length))

theorem values_nil (columns : List Nat) : (values columns []).all Value.isNull = true := by
  simp [values, Cells.valueAt, Value.isNull]

theorem row_at {width : Nat} (inside : column < width) :
    Row.at (row width cells) column = valueAt cells column := by
  simp [row, Row.at, inside]

end Cells

end EntityGraph
