import Mathlib.Data.List.Perm.Basic
import EntityGraph.Plan
import EntityGraph.Proofs.Draft.Resolve
import EntityGraph.Proofs.Tree.Shown
import EntityGraph.Proofs.Window.Cursor
import EntityGraph.Proofs.Window.Keyset
import EntityGraph.Proofs.Window.Split

/-!
# The list of a request

A request lists the rows of a table that pass its filters and lie strictly between its cursors,
in its order. The order goes down to the primary key, so no two rows tie in it and there is one
such list. Nothing is said here of statements or joins.
-/
namespace EntityGraph

variable {m : Model}

/-- What a row has in the positions of an order on its own table. -/
def Entity.orderTuple (e : Entity m.size) (order : List OrderClause) (t : Tuple) : List Value :=
  order.map fun c => (e.scalarAt? c.field).elim .null fun p => t p.2.column

/-- The place of one row against another in an order on their own table. -/
def Entity.ranked (e : Entity m.size) (κ : Collation) (order : List OrderClause) (a b : Tuple) :
    Ordering :=
  κ.position (order.map (·.direction)) (e.orderTuple order a) (e.orderTuple order b)

/-- Whether a row passes a filter on its own table. -/
def FilterClause.Admits (κ : Collation) (e : Entity m.size) (c : FilterClause) (t : Tuple) :
    Prop :=
  ∃ f s, e.scalarAt? c.field = some (f, s) ∧ match Plan.comparison? c.operator with
    | some op => ∃ v, s.encode c.field c.value = .ok v ∧ κ.compared (t s.column) op v = .yes
    | none => ∃ items vs, c.value = .array items ∧ items.mapM (s.encode c.field) = .ok vs ∧
        κ.member (t s.column) vs = .yes

/-- A request without its filters across links. -/
def Params.atRoot (p : Params) : Params :=
  { p with filter := p.filter.filter fun c => Path.isRoot c.field }

theorem Params.atRoot_eq {p : Params} (root : ∀ c ∈ p.filter, Path.isRoot c.field = true) :
    p.atRoot = p := by
  rw [atRoot, List.filter_eq_self.mpr root]

/-- Whether a tuple lies strictly after the one cursor and strictly before the other. -/
def Page.Inside (κ : Collation) (order : List OrderClause) (after before : Option (List Value))
    (tuple : List Value) : Prop :=
  (∀ a, after = some a → κ.position (order.map (·.direction)) tuple a = .gt) ∧
  (∀ b, before = some b → κ.position (order.map (·.direction)) tuple b = .lt)

/-- Whether these are the rows that a request lists between two cursors, in its order. -/
structure Page.Listed (db : Database) (entity : Entity m.size) (params : Params)
    (after before : Option (List Value)) (rows : List Tuple) : Prop where
  sorted : rows.Pairwise fun a b =>
    entity.ranked db.collation (listOrder entity params.order) a b = .lt
  mem : ∀ t, t ∈ rows ↔ t ∈ db.rows entity.table ∧
    (∀ c ∈ params.filter, c.Admits db.collation entity t) ∧
    Inside db.collation (listOrder entity params.order) after before
      (entity.orderTuple (listOrder entity params.order) t)

/-! ## Places of tuples -/

namespace Collation

variable (κ : Collation)

theorem position_swap (ds : List Direction) (xs ys : List Value) :
    κ.position ds xs ys = (κ.position ds ys xs).swap := by
  induction ds generalizing xs ys with
  | nil => cases xs <;> cases ys <;> rfl
  | cons d ds ih =>
    cases xs with
    | nil => cases ys <;> rfl
    | cons x xs =>
      cases ys with
      | nil => rfl
      | cons y ys =>
        have turn : d.turn (κ.place x y) = (d.turn (κ.place y x)).swap := by
          rw [κ.place_eq_swap x y]
          cases d <;> rfl
        simp only [position, Ordering.swap_then, ← ih, turn]

/-- Tuples of the same positions tie exactly where they tie in every position. -/
theorem position_eq_eq {α : Type} (order : List α) (d : α → Direction) (f g : α → Value) :
    κ.position (order.map d) (order.map f) (order.map g) = .eq ↔
      ∀ c ∈ order, κ.place (f c) (g c) = .eq := by
  induction order with
  | nil => simp [position]
  | cons c order ih =>
    simp only [List.map_cons, position, Ordering.then_eq_eq, Direction.turn_eq_eq, ih,
      List.forall_mem_cons]

end Collation

namespace Entity

variable (e : Entity m.size) (κ : Collation) (order : List OrderClause)

theorem ranked_swap (a b : Tuple) : e.ranked κ order a b = (e.ranked κ order b a).swap :=
  κ.position_swap _ _ _

theorem ranked_self (a : Tuple) : e.ranked κ order a a = .eq :=
  (κ.position_eq_eq order _ _ _).mpr fun _ _ => κ.place_self _

theorem length_orderTuple (t : Tuple) : (e.orderTuple order t).length = order.length :=
  List.length_map _

theorem orderTuple_planningOrder (reversed : Bool) (t : Tuple) :
    e.orderTuple (Page.planningOrder reversed order) t = e.orderTuple order t := by
  unfold Page.planningOrder
  split
  · rw [orderTuple, List.map_map]
    rfl
  · rfl

/-- Planned from the far end, rows come in the opposite order. -/
theorem ranked_planningOrder (reversed : Bool) (a b : Tuple) :
    e.ranked κ (Page.planningOrder reversed order) a b =
      if reversed then (e.ranked κ order a b).swap else e.ranked κ order a b := by
  unfold ranked
  rw [orderTuple_planningOrder, orderTuple_planningOrder]
  cases reversed with
  | true =>
    rw [if_pos rfl, Page.planningOrder, if_pos rfl, Page.map_direction_reversed,
      κ.position_reversed]
  | false => rfl

variable {e κ order}

/-- Rows in strict order are distinct. -/
theorem nodup_of_sorted {rows : List Tuple}
    (sorted : rows.Pairwise fun a b => e.ranked κ order a b = .lt) : rows.Nodup := by
  refine sorted.imp ?_
  rintro a b less rfl
  rw [ranked_self] at less
  cases less

/-- There is one strict order of the same rows. -/
theorem eq_of_sorted {rows rows' : List Tuple}
    (sorted : rows.Pairwise fun a b => e.ranked κ order a b = .lt)
    (sorted' : rows'.Pairwise fun a b => e.ranked κ order a b = .lt)
    (same : ∀ t, t ∈ rows ↔ t ∈ rows') : rows = rows' := by
  refine List.Perm.eq_of_pairwise (fun a b _ _ ab ba => ?_) sorted sorted'
    ((List.perm_ext_iff_of_nodup (nodup_of_sorted sorted) (nodup_of_sorted sorted')).mpr same)
  rw [e.ranked_swap, ba] at ab
  cases ab

/-- In strict order some of the rows are a part of all of them. -/
theorem sublist_of_sorted {rows rows' : List Tuple}
    (sorted : rows.Pairwise fun a b => e.ranked κ order a b = .lt)
    (sorted' : rows'.Pairwise fun a b => e.ranked κ order a b = .lt)
    (inside : ∀ t ∈ rows, t ∈ rows') : rows.Sublist rows' := by
  classical
  have same : rows = rows'.filter fun t => t ∈ rows := by
    refine eq_of_sorted sorted (sorted'.sublist List.filter_sublist) fun t => ?_
    rw [List.mem_filter, decide_eq_true_eq]
    exact ⟨fun mem => ⟨inside t mem, mem⟩, fun both => both.2⟩
  rw [same]
  exact List.filter_sublist

/-- The order of a list goes down to the key, by which no two rows tie. -/
theorem eq_of_ranked_eq {db : Database} {entity : Entity m.size}
    (plain : ∀ f ∈ entity.fields, FieldName f.name)
    (distinct : (entity.fields.map (·.name)).Nodup) (key : db.HasKey entity) {a b : Tuple}
    (memA : a ∈ db.rows entity.table) (memB : b ∈ db.rows entity.table)
    (tie : entity.ranked db.collation (Page.listOrder entity order) a b = .eq) : a = b := by
  apply key.identifies.distinct.eq_of_place_eq memA memB
  intro c mem
  refine ⟨key.identifies.filled a memA c mem, key.identifies.filled b memB c mem, ?_⟩
  obtain ⟨⟨f, s⟩, memK, rfl⟩ := List.mem_map.mp mem
  obtain ⟨inside, store⟩ := Entity.mem_scalars.mp (Entity.mem_primaryKey.mp memK).1
  have name := plain f inside
  have clause : ∃ c ∈ Page.listOrder entity order, c.field = Path.key "" f.name := by
    by_cases named : (order.filter fun c => Path.isRoot c.field).any
        (·.field == Path.key "" f.name) = true
    · obtain ⟨c, memC, same⟩ := List.any_eq_true.mp named
      exact ⟨c, List.mem_append_left _ memC, by simpa using same⟩
    · refine ⟨⟨Path.key "" f.name, .ascending⟩, List.mem_append_right _ ?_, rfl⟩
      refine List.mem_filter.mpr ⟨List.mem_map.mpr ⟨_, memK, rfl⟩, ?_⟩
      simpa using named
  obtain ⟨c, memC, field⟩ := clause
  have whole : Path.key "" f.name = Path.extend "" [Path.keySegment, f.name] := rfl
  have segments := @Path.segments_extend [Path.keySegment, f.name]
    (by simpa using ⟨Path.plain_keySegment, name.plain⟩) (List.cons_ne_nil _ _)
  have found : entity.scalarAt? c.field = some (f, s) := by
    have there : entity.field? f.name = some f := Keyed.get?_of_mem distinct inside
    rw [Entity.scalarAt?, field, whole, segments, List.getLastD_cons, List.getLastD_cons,
      List.getLastD_nil, there]
    simp [Field.asScalar?, store]
  have here := (db.collation.position_eq_eq _ _ _ _).mp tie c memC
  simpa [found] using here

/-- Distinct rows in order are in strict order. -/
theorem sorted_of_isLE {db : Database} {entity : Entity m.size}
    (plain : ∀ f ∈ entity.fields, FieldName f.name)
    (distinct : (entity.fields.map (·.name)).Nodup) (key : db.HasKey entity) {reversed : Bool}
    {rows : List Tuple} (stored : ∀ t ∈ rows, t ∈ db.rows entity.table) (nodup : rows.Nodup)
    (ordered : rows.Pairwise fun a b => (entity.ranked db.collation
      (Page.planningOrder reversed (Page.listOrder entity order)) a b).isLE) :
    rows.Pairwise fun a b => entity.ranked db.collation
      (Page.planningOrder reversed (Page.listOrder entity order)) a b = .lt := by
  refine (ordered.and nodup).imp_of_mem ?_
  rintro a b memA memB ⟨less, other⟩
  cases place : entity.ranked db.collation
      (Page.planningOrder reversed (Page.listOrder entity order)) a b with
  | lt => rfl
  | gt =>
    rw [place] at less
    cases less
  | eq =>
    have tie : entity.ranked db.collation (Page.listOrder entity order) a b = .eq := by
      rw [ranked_planningOrder] at place
      cases reversed with
      | true => exact Ordering.swap_eq_eq.mp place
      | false => exact place
    exact absurd (eq_of_ranked_eq plain distinct key (stored a memA) (stored b memB) tie) other

end Entity

namespace Page

theorem mem_planningRows {α : Type} {reversed : Bool} {rows : List α} {x : α} :
    x ∈ planningRows reversed rows ↔ x ∈ rows := by
  cases reversed with
  | true => exact List.mem_reverse
  | false => exact Iff.rfl

theorem length_planningRows {α : Type} (reversed : Bool) (rows : List α) :
    (planningRows reversed rows).length = rows.length := by
  cases reversed with
  | true => exact List.length_reverse
  | false => rfl

theorem planningRows_planningRows {α : Type} (reversed : Bool) (rows : List α) :
    planningRows reversed (planningRows reversed rows) = rows := by
  cases reversed with
  | true => exact List.reverse_reverse rows
  | false => rfl

/-- Rows in the order of planning are in the order of the list once they are turned back. -/
theorem sorted_planningRows {entity : Entity m.size} {κ : Collation} {order : List OrderClause}
    {reversed : Bool} {rows : List Tuple}
    (sorted : rows.Pairwise fun a b =>
      entity.ranked κ (planningOrder reversed order) a b = .lt) :
    (planningRows reversed rows).Pairwise fun a b => entity.ranked κ order a b = .lt := by
  cases reversed with
  | true =>
    refine List.pairwise_reverse.mpr (sorted.imp ?_)
    intro a b less
    rw [Entity.ranked_planningOrder, if_pos rfl, ← Entity.ranked_swap] at less
    exact less
  | false => exact sorted

end Page

/-- A request lists one list. -/
theorem Page.Listed.unique {db : Database} {entity : Entity m.size} {params : Params}
    {after before : Option (List Value)} {rows rows' : List Tuple}
    (listed : Listed db entity params after before rows)
    (listed' : Listed db entity params after before rows') : rows = rows' :=
  Entity.eq_of_sorted listed.sorted listed'.sorted fun t =>
    (listed.mem t).trans (listed'.mem t).symm

namespace Page

variable {n : Nat} {entity : Entity n} {params : Params} {config : Config} {page : Page}
  {after before : Option (List Value)}

/-- What lies between the bounds of a page lies between the cursors of the request. -/
theorem Planned.between_iff (planned : page.Planned entity params config after before)
    (κ : Collation) (tuple : List Value) : page.Between κ tuple ↔
      Inside κ (listOrder entity params.order) after before tuple := by
  have bounds := planned.bounds
  rw [Between, Inside, planned.order]
  cases direction : page.reversed with
  | false =>
    rw [direction, if_neg Bool.false_ne_true, Prod.mk.injEq] at bounds
    rw [bounds.1, bounds.2]
    exact Iff.rfl
  | true =>
    rw [direction, if_pos rfl, Prod.mk.injEq] at bounds
    rw [bounds.1, bounds.2, planningOrder, if_pos rfl, map_direction_reversed]
    simp only [κ.position_reversed, Ordering.swap_eq_gt, Ordering.swap_eq_lt]
    exact and_comm

theorem length_of_readCursor {side : Side} {cursor : Option String} {arity : Nat}
    {values : List Value} (ok : readCursor side cursor arity = .ok (some values)) :
    values.length = arity := by
  cases cursor with
  | none => cases ok
  | some text =>
    obtain ⟨vs, decoded, same⟩ := Outcome.map_eq_ok.mp ok
    cases same
    exact Cursor.length_of_decode decoded

/-- A bound has a value for every clause of the order. -/
theorem Planned.length_cursor (planned : page.Planned entity params config after before)
    {values : List Value} (given : page.after = some values ∨ page.before = some values) :
    values.length = (listOrder entity params.order).length := by
  have bounds := planned.bounds
  have readAfter := planned.readAfter
  have readBefore := planned.readBefore
  split at bounds <;> obtain ⟨same, same'⟩ := Prod.mk.inj bounds <;> rw [same, same'] at given
  · rcases given with rfl | rfl
    · exact length_of_readCursor readBefore
    · exact length_of_readCursor readAfter
  · rcases given with rfl | rfl
    · exact length_of_readCursor readAfter
    · exact length_of_readCursor readBefore

end Page

end EntityGraph
