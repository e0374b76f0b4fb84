import EntityGraph.Proofs.Window.Listed

/-!
# Walks

A walk asks for one page of a list after the other, each time from the cursor at the far end of
the page before, and stops at the page behind which there are no more rows. It goes from the
first page to the last or from the last to the first. All that changes between its requests is
the bound from which a page starts, and that is the place of a row of the list.
-/
namespace EntityGraph

variable {m : Model} {db : Database} {entity : Entity m.size}

namespace Page.Listed

variable {params params' : Params} {front back : List Tuple} {t : Tuple}

/-- What is listed behind a row are the rows that come after it. -/
theorem behind (listed : Listed db entity params none none (front ++ t :: back))
    (filter : params'.filter = params.filter) (order : params'.order = params.order) :
    Listed db entity params' (some (entity.orderTuple (listOrder entity params'.order) t)) none
      back := by
  obtain ⟨-, sorted, across⟩ := List.pairwise_append.mp listed.sorted
  obtain ⟨first, later⟩ := List.pairwise_cons.mp sorted
  rw [← order] at first later across
  refine ⟨later, fun x => ?_⟩
  have all := listed.mem x
  rw [← filter, ← order] at all
  constructor
  · intro mem
    obtain ⟨row, passes, -⟩ :=
      all.mp (List.mem_append_right _ (List.mem_cons_of_mem _ mem))
    refine ⟨row, passes, fun a same => ?_, fun b none => by cases none⟩
    obtain rfl := Option.some.inj same
    have less := first x mem
    rw [Entity.ranked_swap, Ordering.swap_eq_lt] at less
    exact less
  · rintro ⟨row, passes, inside⟩
    have beyond : entity.ranked db.collation (listOrder entity params'.order) x t = .gt :=
      inside.1 _ rfl
    rcases List.mem_append.mp (all.mpr ⟨row, passes, fun _ none => (by cases none),
        fun _ none => (by cases none)⟩) with before | after
    · rw [across x before t List.mem_cons_self] at beyond
      cases beyond
    · rcases List.mem_cons.mp after with rfl | later
      · rw [Entity.ranked_self] at beyond
        cases beyond
      · exact later

/-- What is listed ahead of a row are the rows that come before it. -/
theorem ahead (listed : Listed db entity params none none (front ++ t :: back))
    (filter : params'.filter = params.filter) (order : params'.order = params.order) :
    Listed db entity params' none (some (entity.orderTuple (listOrder entity params'.order) t))
      front := by
  obtain ⟨earlier, sorted, across⟩ := List.pairwise_append.mp listed.sorted
  obtain ⟨first, -⟩ := List.pairwise_cons.mp sorted
  rw [← order] at first earlier across
  refine ⟨earlier, fun x => ?_⟩
  have all := listed.mem x
  rw [← filter, ← order] at all
  constructor
  · intro mem
    obtain ⟨row, passes, -⟩ := all.mp (List.mem_append_left _ mem)
    refine ⟨row, passes, fun a none => (by cases none), fun b same => ?_⟩
    obtain rfl := Option.some.inj same
    exact across x mem t List.mem_cons_self
  · rintro ⟨row, passes, inside⟩
    have below : entity.ranked db.collation (listOrder entity params'.order) x t = .lt :=
      inside.2 _ rfl
    rcases List.mem_append.mp (all.mpr ⟨row, passes, fun _ none => (by cases none),
        fun _ none => (by cases none)⟩) with before | after
    · exact before
    · rcases List.mem_cons.mp after with rfl | later
      · rw [Entity.ranked_self] at below
        cases below
      · rw [Entity.ranked_swap, first x later] at below
        cases below

end Page.Listed

structure Walk where
  /-- Whether it goes from the last page to the first. -/
  backward : Bool
  /-- The rows to ask for at once. -/
  size : UInt64
  filter : List FilterClause
  order : List OrderClause

theorem Page.forall₂_planningRows {α β : Type} {R : α → β → Prop} {xs : List α} {ys : List β}
    (related : List.Forall₂ R xs ys) (reversed : Bool) :
    List.Forall₂ R (planningRows reversed xs) (planningRows reversed ys) := by
  cases reversed with
  | true => exact List.forall₂_reverse_iff.mpr related
  | false => exact related

namespace Walk

variable (w : Walk) {config : Config}

/-- The request for the page that starts at a cursor, or for the first page. -/
def request (cursor : Option String) : Params :=
  if w.backward then
    { last := some w.size, before := cursor, filter := w.filter, order := w.order }
  else { first := some w.size, after := cursor, filter := w.filter, order := w.order }

def goesOn (c : Connection) : Bool :=
  if w.backward then c.pageInfo.hasPreviousPage else c.pageInfo.hasNextPage

def farCursor (c : Connection) : Option String :=
  if w.backward then c.pageInfo.startCursor else c.pageInfo.endCursor

/-- The cursor at which the page after a page starts, if there is to be one. -/
def next (c : Connection) : Option (Option String) :=
  if w.goesOn c then some (w.farCursor c) else none

/-- The edges of pages, in the order of the list. -/
def edges (pages : List Connection) : List Edge :=
  (Page.planningRows w.backward pages).flatMap (·.edges)

/-- The edges of pages, in the direction of the walk. -/
def visited (pages : List Connection) : List Edge :=
  pages.flatMap fun c => Page.planningRows w.backward c.edges

theorem edges_eq (pages : List Connection) :
    w.edges pages = Page.planningRows w.backward (w.visited pages) := by
  unfold edges visited Page.planningRows
  split
  · rw [List.reverse_flatMap]
    simp [Function.comp_def]
  · rfl

/-- What a walk may have come to: its pages so far, and the cursor at which the next one starts
unless it is over. -/
inductive Reaches (w : Walk) (gives : Params → Except Error Connection → Prop) :
    List Connection → Option (Option String) → Prop where
  | start : Reaches w gives [] (some none)
  | page {pages : List Connection} {cursor : Option String} {c : Connection} :
      Reaches w gives pages (some cursor) → gives (w.request cursor) (.ok c) →
      Reaches w gives (pages ++ [c]) (w.next c)

/-- How many rows a page has as long as there are enough. -/
def pageSize (config : Config) : Nat :=
  (min w.size config.maxLimit).toNat

theorem pageSize_pos (some : 1 ≤ w.size) (limit : 1 ≤ config.maxLimit) :
    0 < w.pageSize config := by
  have size := UInt64.le_iff_toNat_le.mp some
  have most := UInt64.le_iff_toNat_le.mp limit
  rw [pageSize]
  rcases Std.min_eq_or (a := w.size) (b := config.maxLimit) with least | least
  · rw [least]
    exact size
  · rw [least]
    exact most

theorem request_filter (cursor : Option String) : (w.request cursor).filter = w.filter := by
  unfold request
  split <;> rfl

theorem request_order (cursor : Option String) : (w.request cursor).order = w.order := by
  unfold request
  split <;> rfl

/-! ## Bounds

A walk starts without a bound, and then has the place of a row as its bound on the side from
which it comes.
-/

def after (bound : Option (List Value)) : Option (List Value) :=
  if w.backward then none else bound

def before (bound : Option (List Value)) : Option (List Value) :=
  if w.backward then bound else none

/-- The request for the page behind a bound. -/
def requestFrom (bound : Option (List Value)) : Params :=
  w.request (bound.map Cursor.encode)

theorem readCursor_encode (side : Side) {bound : Option (List Value)} {arity : Nat}
    (length : ∀ values ∈ bound, values.length = arity)
    (survive : ∀ values ∈ bound, ∀ v ∈ values, v.Survives) :
    Page.readCursor side (bound.map Cursor.encode) arity = .ok bound := by
  cases bound with
  | none => rfl
  | some values =>
    rw [Option.map_some, Page.readCursor, ← length values rfl,
      Cursor.decode_encode side (survive values rfl)]
    rfl

/-- The page that is planned behind a bound. -/
def page (entity : Entity m.size) (config : Config) (bound : Option (List Value)) : Page where
  first := min w.size config.maxLimit
  last := none
  after := bound
  before := none
  reversed := w.backward
  cursorOrder := Page.planningOrder w.backward (Page.listOrder entity w.order)
  crossOrder := Page.planningOrder w.backward (w.order.filter fun c => !Path.isRoot c.field)
  filter := w.filter

section

variable {bound : Option (List Value)}
  (length : ∀ values ∈ bound, values.length = (Page.listOrder entity w.order).length)
  (survive : ∀ values ∈ bound, ∀ v ∈ values, v.Survives)
include length survive

/-- The cursors of a request are read as its bound. -/
theorem readCursors :
    Page.readCursor .after (w.requestFrom bound).after
        (Page.listOrder entity (w.requestFrom bound).order).length = .ok (w.after bound) ∧
      Page.readCursor .before (w.requestFrom bound).before
        (Page.listOrder entity (w.requestFrom bound).order).length = .ok (w.before bound) := by
  unfold requestFrom request after before
  split
  · exact ⟨rfl, readCursor_encode .before length survive⟩
  · exact ⟨readCursor_encode .after length survive, rfl⟩

theorem plan_requestFrom :
    Page.plan entity (w.requestFrom bound) config = .ok (w.page entity config bound) := by
  obtain ⟨readAfter, readBefore⟩ := w.readCursors length survive
  unfold Page.plan
  dsimp only
  rw [readAfter, readBefore]
  unfold requestFrom request page after before
  cases w.backward <;> rfl

end

/-- A request cuts the rows behind its bound into those of its page and those that are left. -/
theorem split_requestFrom {α : Type} (bound : Option (List Value)) (rows : List α) :
    (w.requestFrom bound).split config (Page.planningRows w.backward rows) =
      if w.backward then
        (Split.mk [] (rows.take (w.pageSize config)) (rows.drop (w.pageSize config))).reverse
      else ⟨[], rows.take (w.pageSize config), rows.drop (w.pageSize config)⟩ := by
  unfold requestFrom request
  cases direction : w.backward with
  | true =>
    simp [Params.split, Page.planningRows, Split.reverse, pageSize,
      List.rtake_eq_reverse_take_reverse, List.rdrop_eq_reverse_drop_reverse]
  | false => rfl

theorem window_requestFrom {α : Type} (bound : Option (List Value)) (rows : List α) :
    ((w.requestFrom bound).split config (Page.planningRows w.backward rows)).window =
      Page.planningRows w.backward (rows.take (w.pageSize config)) := by
  rw [split_requestFrom]
  cases w.backward <;> rfl

/-- A walk goes on from the last row of a page as long as rows are left. -/
theorem next_connection (bound : Option (List Value)) (rows : List Record) :
    w.next (Page.connection (w.requestFrom bound)
        ((w.requestFrom bound).split config (Page.planningRows w.backward rows))) =
      if w.pageSize config < rows.length
      then some ((rows.take (w.pageSize config)).getLast?.map fun r => Cursor.encode r.cursor)
      else none := by
  rw [split_requestFrom]
  unfold next goesOn farCursor requestFrom request
  cases w.backward with
  | true => simp [Page.connection, Split.reverse]
  | false => simp [Page.connection]

/-- Behind a row are listed the rows that are left after it. -/
theorem listed_requestFrom {front back : List Tuple} {t : Tuple}
    (listed : Page.Listed db entity (w.requestFrom none) none none
      (Page.planningRows w.backward (front ++ t :: back))) :
    Page.Listed db entity
      (w.requestFrom (some (entity.orderTuple (Page.listOrder entity w.order) t)))
      (w.after (some (entity.orderTuple (Page.listOrder entity w.order) t)))
      (w.before (some (entity.orderTuple (Page.listOrder entity w.order) t)))
      (Page.planningRows w.backward back) := by
  have order : ∀ cursor, (w.request cursor).order = (w.requestFrom none).order := fun cursor =>
    (w.request_order cursor).trans (w.request_order none).symm
  have filter : ∀ cursor, (w.request cursor).filter = (w.requestFrom none).filter := fun cursor =>
    (w.request_filter cursor).trans (w.request_filter none).symm
  unfold after before
  cases direction : w.backward with
  | true =>
    rw [direction, Page.planningRows, if_pos rfl, List.reverse_append, List.reverse_cons,
      List.append_assoc, List.singleton_append] at listed
    have ahead := fun cursor => listed.ahead (filter cursor) (order cursor)
    simp only [w.request_order] at ahead
    exact ahead _
  | false =>
    rw [direction, Page.planningRows, if_neg Bool.false_ne_true] at listed
    have behind := fun cursor => listed.behind (filter cursor) (order cursor)
    simp only [w.request_order] at behind
    exact behind _

end Walk

end EntityGraph
