import Mathlib.Algebra.Group.Nat.Defs
import Mathlib.Data.List.DropRight
import EntityGraph.Proofs.Window.Planned
import EntityGraph.Window.Connection

/-!
# The window of a list

A request cuts the list between its cursors in three: the rows of its window, and those in front
of it and behind it. However the page is planned, one row more than it may keep is enough to
find the window and to see whether there are rows on either side.
-/
namespace EntityGraph

variable {α β : Type}

/-- A list cut in three. -/
structure Split (α : Type) where
  front : List α
  window : List α
  rest : List α

namespace Split

def all (s : Split α) : List α :=
  s.front ++ s.window ++ s.rest

def map (f : α → β) (s : Split α) : Split β :=
  ⟨s.front.map f, s.window.map f, s.rest.map f⟩

def reverse (s : Split α) : Split α :=
  ⟨s.rest.reverse, s.window.reverse, s.front.reverse⟩

end Split

/-- The window that a request asks for: so many rows from one end, and where a smaller number is
given for the other end, so many of these from there. No number exceeds the limit. -/
def Params.split (params : Params) (config : Config) (rows : List α) : Split α :=
  let size (n : UInt64) : Nat := (min n config.maxLimit).toNat
  match params.first, params.last with
  | none, none => ⟨[], rows.take config.pageSize.toNat, rows.drop config.pageSize.toNat⟩
  | some first, none => ⟨[], rows.take (size first), rows.drop (size first)⟩
  | none, some last => ⟨rows.rdrop (size last), rows.rtake (size last), []⟩
  | some first, some last =>
    if first ≤ last then
      let far := rows.rtake (size last)
      ⟨rows.rdrop (size last), far.take (size first), far.drop (size first)⟩
    else
      let near := rows.take (size first)
      ⟨near.rdrop (size last), near.rtake (size last), rows.drop (size first)⟩

theorem rdrop_append_rtake (rows : List α) (n : Nat) : rows.rdrop n ++ rows.rtake n = rows :=
  List.take_append_drop _ _

/-- Nothing is lost. -/
theorem Params.split_all (params : Params) (config : Config) (rows : List α) :
    (params.split config rows).all = rows := by
  unfold split Split.all
  cases params.first with
  | none =>
    cases params.last with
    | none => simp
    | some last => simp [rdrop_append_rtake]
  | some first =>
    cases params.last with
    | none => simp
    | some last =>
      by_cases backward : first ≤ last
      · simp [backward, rdrop_append_rtake]
      · simp [backward, rdrop_append_rtake]

theorem Params.split_map (params : Params) (config : Config) (f : α → β) (rows : List α) :
    params.split config (rows.map f) = (params.split config rows).map f := by
  unfold split
  cases params.first with
  | none =>
    cases params.last <;> simp [Split.map, List.rdrop, List.rtake]
  | some first =>
    cases params.last with
    | none => simp [Split.map]
    | some last =>
      by_cases backward : first ≤ last
      · simp [backward, Split.map, List.rdrop, List.rtake]
      · simp [backward, Split.map, List.rdrop, List.rtake]

namespace Page

/-- The rows in the direction of planning. -/
def planningRows (reversed : Bool) (rows : List α) : List α :=
  if reversed then rows.reverse else rows

theorem planningRows_map (reversed : Bool) (f : α → β) (rows : List α) :
    planningRows reversed (rows.map f) = (planningRows reversed rows).map f := by
  cases reversed with
  | true => exact List.map_reverse.symm
  | false => rfl

/-- The cut that a page makes in the direction of planning. -/
def split (p : Page) (rows : List α) : Split α :=
  let near := rows.take p.first.toNat
  match p.last with
  | none => ⟨[], near, rows.drop p.first.toNat⟩
  | some last => ⟨near.rdrop last.toNat, near.rtake last.toNat, rows.drop p.first.toNat⟩

theorem split_rest (p : Page) (rows : List α) :
    (p.split rows).rest = rows.drop p.first.toNat := by
  unfold split
  cases p.last <;> rfl

variable {n : Nat} {entity : Entity n} {params : Params} {config : Config} {page : Page}
  {after before : Option (List Value)}

/-- A page is planned so that it cuts out the window of the request. -/
theorem Planned.split_eq (planned : page.Planned entity params config after before)
    (rows : List α) : params.split config rows =
      if page.reversed then (page.split rows.reverse).reverse else page.split rows := by
  have rtake : ∀ (xs : List α) (k : Nat), xs.rtake k = (xs.reverse.take k).reverse :=
    fun xs k => List.rtake_eq_reverse_take_reverse xs k
  have rdrop : ∀ (xs : List α) (k : Nat), xs.rdrop k = (xs.reverse.drop k).reverse :=
    fun xs k => List.rdrop_eq_reverse_drop_reverse xs k
  obtain ⟨first?, last?, _, _, _, _⟩ := params
  have reversed := planned.reversed
  have first := planned.first
  have last := planned.last
  simp only [isBackward, keptFirst, keptLast] at reversed first last
  cases first? with
  | none =>
    cases last? with
    | none => simp_all [Params.split, split]
    | some k => simp_all [Params.split, split, Split.reverse]
  | some k =>
    cases last? with
    | none => simp_all [Params.split, split]
    | some k' =>
      by_cases backward : k ≤ k'
      · simp_all [Params.split, split, Split.reverse]
      · have forward : decide (k ≤ k') = false := decide_eq_false backward
        simp only [forward] at reversed first last
        simp [Params.split, split, reversed, first, last, backward]

theorem readCursor_isSome {side : Side} {cursor : Option String} {arity : Nat}
    {values : Option (List Value)} (ok : readCursor side cursor arity = .ok values) :
    values.isSome = cursor.isSome := by
  cases cursor with
  | none =>
    cases ok
    rfl
  | some text =>
    obtain ⟨vs, -, rfl⟩ := Outcome.map_eq_ok.mp ok
    rfl

/-- A page keeps no more rows than the limit allows. -/
theorem Planned.first_le (planned : page.Planned entity params config after before) :
    page.first ≤ config.maxLimit := by
  rw [planned.first, keptFirst]
  split
  · exact Std.min_le_right
  · split
    · exact Std.min_le_right
    · unfold Config.pageSize
      split
      · exact Std.min_le_right
      · exact UInt64.le_refl _

/-! ## The answer for the rows fetched -/

/-- The connection that consists of these records, between others. -/
def connection (params : Params) (s : Split Record) : Connection :=
  { edges := s.window.map edge
    pageInfo :=
      { hasNextPage := !s.rest.isEmpty || params.before.isSome
        hasPreviousPage := !s.front.isEmpty || params.after.isSome
        startCursor := s.window.head?.map fun r => Cursor.encode r.cursor
        endCursor := s.window.getLast?.map fun r => Cursor.encode r.cursor } }

theorem isEmpty_drop (rows : List α) (n : Nat) :
    (!(rows.drop n).isEmpty) = decide (n < rows.length) := by
  rw [Bool.eq_iff_iff]
  simp

theorem isEmpty_rdrop (rows : List α) (n : Nat) :
    (!(rows.rdrop n).isEmpty) = decide (n < rows.length) := by
  rw [List.rdrop_eq_reverse_drop_reverse, List.isEmpty_reverse, isEmpty_drop, List.length_reverse]

theorem rtake_of_length_le {rows : List α} {n : Nat} (all : rows.length ≤ n) :
    rows.rtake n = rows := by
  rw [List.rtake, Nat.sub_eq_zero_of_le all, List.drop_zero]

/-- The window is among the rows fetched. -/
theorem Planned.mem_fetched (planned : page.Planned entity params config after before)
    {rows : List α} {x : α} (mem : x ∈ (params.split config rows).window) :
    x ∈ (planningRows page.reversed rows).take (page.first.toNat + 1) := by
  have near : ∀ xs : List α, x ∈ (page.split xs).window → x ∈ xs.take (page.first.toNat + 1) := by
    intro xs inside
    have kept : x ∈ xs.take page.first.toNat := by
      unfold split at inside
      split at inside
      · exact inside
      · exact List.mem_of_mem_drop inside
    have shorter : (xs.take (page.first.toNat + 1)).take page.first.toNat =
        xs.take page.first.toNat := by
      rw [List.take_take, Nat.min_eq_left (Nat.le_succ _)]
    rw [← shorter] at kept
    exact List.mem_of_mem_take kept
  rw [planned.split_eq] at mem
  cases direction : page.reversed with
  | true =>
    rw [direction, if_pos rfl] at mem
    exact near _ (List.mem_reverse.mp mem)
  | false =>
    rw [direction, if_neg Bool.false_ne_true] at mem
    exact near _ mem

/-- Trimming what was fetched leaves the window, and tells whether rows were in front of it. -/
theorem trim_take (p : Page) (rows : List Record) :
    p.trim (rows.take (p.first.toNat + 1)) =
      ((p.split rows).window, !(p.split rows).front.isEmpty) := by
  have kept : (rows.take (p.first.toNat + 1)).take p.first.toNat = rows.take p.first.toNat := by
    rw [List.take_take, Nat.min_eq_left (Nat.le_succ _)]
  unfold trim split
  rw [kept]
  cases p.last with
  | none => rfl
  | some last =>
    by_cases more : last.toNat < (rows.take p.first.toNat).length
    · simp only [more, if_true, isEmpty_rdrop, decide_true]
      rfl
    · simp only [more, if_false, isEmpty_rdrop, decide_false]
      rw [rtake_of_length_le (Nat.le_of_not_lt more)]

/-- One row beyond those kept tells whether any follow. -/
theorem lt_length_take (rows : List α) (n : Nat) :
    n < (rows.take (n + 1)).length ↔ n < rows.length := by
  rw [List.length_take]
  omega

/-- Reading what was fetched in the direction of planning gives the window of all rows. -/
theorem Planned.finish_eq (planned : page.Planned entity params config after before)
    (rows : List Record) :
    page.finish ((planningRows page.reversed rows).take (page.first.toNat + 1)) =
      connection params (params.split config rows) := by
  have afterSome := readCursor_isSome planned.readAfter
  have beforeSome := readCursor_isSome planned.readBefore
  have bounds := planned.bounds
  unfold finish
  simp only [trim_take, lt_length_take, ← isEmpty_drop]
  rw [planned.split_eq]
  cases direction : page.reversed with
  | true =>
    rw [direction, if_pos rfl, Prod.mk.injEq] at bounds
    simp [connection, Split.reverse, planningRows, split_rest, bounds, afterSome, beforeSome,
      Function.comp_def, edge, Bool.or_comm]
  | false =>
    rw [direction, if_neg Bool.false_ne_true, Prod.mk.injEq] at bounds
    simp [connection, planningRows, split_rest, bounds, afterSome, beforeSome,
      Function.comp_def, edge, Bool.or_comm]

end Page

end EntityGraph
