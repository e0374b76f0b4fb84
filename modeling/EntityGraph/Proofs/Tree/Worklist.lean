import Mathlib.Data.List.Perm.Basic
import EntityGraph.Proofs.Tree.Grouping
import EntityGraph.Tree.Nesting

/-!
# Groups taken one after the other

Grouping goes through the rows once and keeps all groups open meanwhile. Said without it: the
first row that is left takes along all rows that agree with it in the columns of the identity, and
the same is done with the others until none is left; a group without an identity is left out. It
is shown that both give the same groups, and from one such step to all of them, how the rows fall
into the groups.
-/
namespace EntityGraph

/-- Whether two values have the same kind and content; reals have the same bits. -/
def Value.same (v w : Value) : Bool :=
  match v with
  | .integer i => match w with | .integer j => i == j | _ => false
  | .real x => match w with | .real y => x.bits == y.bits | _ => false
  | .text s => match w with | .text t => s == t | _ => false
  | .blob bs => match w with | .blob cs => bs == cs | _ => false
  | .null => w.isNull

theorem Value.same_iff {v w : Value} : v.same w = true ↔ v = w := by
  have reals : ∀ x y : Binary64, x.bits = y.bits ↔ x = y :=
    fun ⟨_⟩ ⟨_⟩ => by rw [Binary64.mk.injEq]
  cases v <;> cases w <;> simp [Value.same, Value.isNull, reals]

namespace Group

variable {α : Type} {columns : List Nat} {row : α → Row} {x y z : α} {xs : List α}

/-- Whether two elements stand for rows with the same values in these columns. -/
def agree (columns : List Nat) (row : α → Row) (x y : α) : Bool :=
  columns.all fun c => ((row x).at c).same ((row y).at c)

/-- Whether an element stands for a row that is null in all these columns. -/
def isVoid (columns : List Nat) (row : α → Row) (x : α) : Bool :=
  columns.all fun c => ((row x).at c).isNull

/-- What is left when an element has taken along all that agree with it. -/
def leftBy (columns : List Nat) (row : α → Row) (x : α) (xs : List α) : List α :=
  xs.filter fun y => !agree columns row x y

theorem length_leftBy_lt (x : α) (xs : List α) :
    (leftBy columns row x xs).length < (x :: xs).length :=
  Nat.lt_succ_of_le (List.length_filter_le _ xs)

/-- The groups of elements, one after the other. -/
def worklist (columns : List Nat) (row : α → Row) : List α → List (List α)
  | [] => []
  | x :: remaining =>
    let group := x :: remaining.filter (agree columns row x)
    let others := worklist columns row (leftBy columns row x remaining)
    if isVoid columns row x then others else group :: others
termination_by xs => xs.length
decreasing_by exact length_leftBy_lt x remaining

theorem agree_iff : agree columns row x y = true ↔
    Nesting.valuesAt columns (row y) = Nesting.valuesAt columns (row x) := by
  rw [agree, List.all_eq_true, Nesting.valuesAt, Nesting.valuesAt, List.map_inj_left]
  exact forall₂_congr fun c _ => Value.same_iff.trans eq_comm

theorem isVoid_eq (columns : List Nat) (row : α → Row) (x : α) :
    isVoid columns row x = (Nesting.valuesAt columns (row x)).all Value.isNull := by
  rw [isVoid, Nesting.valuesAt, List.all_map]
  rfl

/-- One pass makes the group of the first element and the groups of those that are left by it. -/
theorem groups_cons (columns : List Nat) (row : α → Row) (x : α) (xs : List α) :
    groups (fun y => Nesting.valuesAt columns (row y)) (x :: xs) =
      if isVoid columns row x then
        groups (fun y => Nesting.valuesAt columns (row y)) (leftBy columns row x xs)
      else (x :: xs.filter (agree columns row x)) ::
        groups (fun y => Nesting.valuesAt columns (row y)) (leftBy columns row x xs) := by
  have same : ∀ y, (Nesting.valuesAt columns (row y) == Nesting.valuesAt columns (row x)) =
      agree columns row x y := by
    intro y
    rw [Bool.eq_iff_iff, agree_iff, beq_iff_eq]
  rw [groups, identified_cons]
  simp only [same]
  by_cases void : isVoid columns row x = true
  · rw [if_pos void, List.filter_cons_of_neg (by simpa [isVoid_eq] using void)]
    rfl
  · rw [if_neg void, List.filter_cons_of_pos (by simpa [isVoid_eq] using void)]
    rfl

theorem groups_eq_worklist (columns : List Nat) (row : α → Row) (xs : List α) :
    groups (fun x => Nesting.valuesAt columns (row x)) xs = worklist columns row xs := by
  fun_induction worklist columns row xs with
  | case1 => rfl
  | case2 x remaining void ih => rw [groups_cons, if_pos void, if_pos void, ih]
  | case3 x remaining void ih => rw [groups_cons, if_neg void, if_neg void, ih]

/-! ## How rows fall into groups -/

/-- Whether one group shows up before another: up to some place there is an element of the one
and none of the other. -/
def ShowsFirst (xs : List α) (group later : List α) : Prop :=
  ∃ before after, xs = before ++ after ∧ (∃ x ∈ group, x ∈ before) ∧ ∀ y ∈ later, y ∉ before

/-- How elements fall into groups. -/
structure FallsInto (columns : List Nat) (row : α → Row) (xs : List α) (groups : List (List α)) :
    Prop where
  ne_nil : ∀ group ∈ groups, group ≠ []
  /-- Groups have no element in common. -/
  disjoint : groups.Pairwise List.Disjoint
  /-- Groups come in the order in which they show up. -/
  showsFirst : groups.Pairwise (ShowsFirst xs)
  /-- Elements of a group keep their order. -/
  sublist : ∀ group ∈ groups, group.Sublist xs
  /-- A group is all that agrees with any of its elements. -/
  eq_filter : ∀ group ∈ groups, ∀ x ∈ group, group = xs.filter (agree columns row x)
  /-- The groups together are all elements that are not void, as often as they come. -/
  perm : groups.flatten.Perm (xs.filter fun x => !isVoid columns row x)

theorem agree_self (columns : List Nat) (row : α → Row) (x : α) : agree columns row x x = true :=
  agree_iff.mpr rfl

/-- What agrees with one of two elements that agree does so with the other one. -/
theorem agree_congr (same : agree columns row x y = true) :
    agree columns row x = agree columns row y := by
  funext z
  rw [Bool.eq_iff_iff, agree_iff, agree_iff, agree_iff.mp same]

theorem isVoid_congr (same : agree columns row x y = true) :
    isVoid columns row x = isVoid columns row y := by
  rw [isVoid_eq, isVoid_eq, agree_iff.mp same]

theorem mem_leftBy : y ∈ leftBy columns row x xs ↔ y ∈ xs ∧ agree columns row x y = false := by
  rw [leftBy, List.mem_filter, Bool.not_eq_true']

/-- What an element that is left agrees with is left too. -/
theorem filter_leftBy (other : agree columns row x y = false) :
    (leftBy columns row x xs).filter (agree columns row y) =
      (x :: xs).filter (agree columns row y) := by
  have apart : ∀ z, agree columns row y z = true → agree columns row x z = false := by
    intro z same
    rw [← Bool.not_eq_true, agree_iff] at other ⊢
    exact fun back => other ((agree_iff.mp same).symm.trans back)
  have first : ¬ agree columns row y x = true := by
    intro same
    have none := apart x same
    rw [agree_self] at none
    cases none
  rw [List.filter_cons_of_neg first, leftBy, List.filter_filter]
  refine List.filter_congr fun z _ => ?_
  cases same : agree columns row y z with
  | false => rfl
  | true => simp [apart z same]

theorem ShowsFirst.of_leftBy {group later : List α}
    (shows : ShowsFirst (leftBy columns row x xs) group later)
    (others : ∀ y ∈ later, agree columns row x y = false) : ShowsFirst (x :: xs) group later := by
  obtain ⟨before, after, whole, ⟨y, memY, seen⟩, unseen⟩ := shows
  obtain ⟨front, back, rfl, rfl, -⟩ := List.filter_eq_append_iff.mp whole
  refine ⟨x :: front, back, rfl, ⟨y, memY, ?_⟩, fun z memZ here => ?_⟩
  · exact List.mem_cons_of_mem x (List.mem_of_mem_filter seen)
  · rcases List.mem_cons.mp here with rfl | here
    · have own := others z memZ
      rw [agree_self] at own
      cases own
    · exact unseen z memZ (List.mem_filter.mpr ⟨here, by simp [others z memZ]⟩)

/-- The elements that are not void are those that agree with the first one, if it is not, and
those that are left by it. -/
theorem filter_isVoid_perm (columns : List Nat) (row : α → Row) (x : α) (xs : List α) :
    ((if isVoid columns row x then [] else x :: xs.filter (agree columns row x)) ++
      (leftBy columns row x xs).filter fun y => !isVoid columns row y).Perm
        ((x :: xs).filter fun y => !isVoid columns row y) := by
  have split := List.filter_append_perm (agree columns row x)
    ((x :: xs).filter fun y => !isVoid columns row y)
  have taken : ((x :: xs).filter fun y => !isVoid columns row y).filter (agree columns row x) =
      if isVoid columns row x then [] else x :: xs.filter (agree columns row x) := by
    have chosen : ((x :: xs).filter fun y => !isVoid columns row y).filter (agree columns row x) =
        ((x :: xs).filter (agree columns row x)).filter fun _ => !isVoid columns row x := by
      rw [FirstSeen.filter_comm]
      refine List.filter_congr fun y mem => ?_
      rw [isVoid_congr (List.mem_filter.mp mem).2]
    rw [chosen, List.filter_cons_of_pos (agree_self columns row x)]
    cases isVoid columns row x <;> simp
  have left : ((x :: xs).filter fun y => !isVoid columns row y).filter
      (fun y => !agree columns row x y) =
        (leftBy columns row x xs).filter fun y => !isVoid columns row y := by
    rw [FirstSeen.filter_comm, List.filter_cons_of_neg (by simp [agree_self]), leftBy]
  rwa [taken, left] at split

namespace FallsInto

variable {groups : List (List α)}

/-! Groups of what is left by an element are seen as groups of all. -/

theorem other (rest : FallsInto columns row (leftBy columns row x xs) groups) :
    ∀ group ∈ groups, ∀ y ∈ group, agree columns row x y = false := by
  intro group mem y memY
  exact (mem_leftBy.mp ((rest.sublist group mem).subset memY)).2

theorem showsFirst_all (rest : FallsInto columns row (leftBy columns row x xs) groups) :
    groups.Pairwise (ShowsFirst (x :: xs)) :=
  rest.showsFirst.imp_of_mem fun _ mem shows => shows.of_leftBy (rest.other _ mem)

theorem sublist_all (rest : FallsInto columns row (leftBy columns row x xs) groups) :
    ∀ group ∈ groups, group.Sublist (x :: xs) :=
  fun group mem => ((rest.sublist group mem).trans List.filter_sublist).cons x

theorem eq_filter_all (rest : FallsInto columns row (leftBy columns row x xs) groups) :
    ∀ group ∈ groups, ∀ y ∈ group, group = (x :: xs).filter (agree columns row y) :=
  fun group mem y memY =>
    (rest.eq_filter group mem y memY).trans (filter_leftBy (rest.other group mem y memY))

/-! One step, for each kind of first element. -/

theorem nil (columns : List Nat) (row : α → Row) : FallsInto columns row [] [] where
  ne_nil := by simp
  disjoint := .nil
  showsFirst := .nil
  sublist := by simp
  eq_filter := by simp
  perm := .refl _

/-- A void element makes no group. -/
theorem of_isVoid (rest : FallsInto columns row (leftBy columns row x xs) groups)
    (void : isVoid columns row x = true) : FallsInto columns row (x :: xs) groups where
  ne_nil := rest.ne_nil
  disjoint := rest.disjoint
  showsFirst := rest.showsFirst_all
  sublist := rest.sublist_all
  eq_filter := rest.eq_filter_all
  perm := by
    have all := filter_isVoid_perm columns row x xs
    rw [if_pos void, List.nil_append] at all
    exact rest.perm.trans all

/-- An element that is not void makes a group, which shows up before all others. -/
theorem cons (rest : FallsInto columns row (leftBy columns row x xs) groups)
    (filled : ¬ isVoid columns row x = true) :
    FallsInto columns row (x :: xs) ((x :: xs.filter (agree columns row x)) :: groups) := by
  have own : x :: xs.filter (agree columns row x) = (x :: xs).filter (agree columns row x) :=
    (List.filter_cons_of_pos (agree_self columns row x)).symm
  have agreed : ∀ y ∈ x :: xs.filter (agree columns row x), agree columns row x y = true := by
    intro y mem
    rw [own] at mem
    exact (List.mem_filter.mp mem).2
  have apart : ∀ group ∈ groups, ∀ y ∈ group, ¬ agree columns row x y = true := by
    intro group mem y memY
    rw [rest.other group mem y memY]
    exact Bool.false_ne_true
  exact {
    ne_nil := List.forall_mem_cons.mpr ⟨List.cons_ne_nil _ _, rest.ne_nil⟩
    disjoint := by
      refine List.pairwise_cons.mpr ⟨fun group mem y here there => ?_, rest.disjoint⟩
      exact apart group mem y there (agreed y here)
    showsFirst := by
      refine List.pairwise_cons.mpr ⟨fun group mem => ?_, rest.showsFirst_all⟩
      -- of the first element alone nothing is in another group
      refine ⟨[x], xs, rfl, ⟨x, List.mem_cons_self, List.mem_cons_self⟩, fun y memY first => ?_⟩
      rw [List.mem_singleton.mp first] at memY
      exact apart group mem x memY (agree_self columns row x)
    sublist := List.forall_mem_cons.mpr ⟨List.filter_sublist.cons_cons x, rest.sublist_all⟩
    eq_filter := by
      refine List.forall_mem_cons.mpr ⟨fun y mem => ?_, rest.eq_filter_all⟩
      rw [own, agree_congr (agreed y mem)]
    perm := by
      have all := filter_isVoid_perm columns row x xs
      rw [if_neg filled] at all
      exact (rest.perm.append_left _).trans all }

end FallsInto

theorem fallsInto_worklist (columns : List Nat) (row : α → Row) (xs : List α) :
    FallsInto columns row xs (worklist columns row xs) := by
  fun_induction worklist columns row xs with
  | case1 => exact .nil columns row
  | case2 x remaining void ih =>
    rw [if_pos void]
    exact ih.of_isVoid void
  | case3 x remaining filled ih =>
    rw [if_neg filled]
    exact ih.cons filled

end Group

namespace Layout

/-- The groups of a level, of elements that stand for rows. -/
def groupsAt {α : Type} (l : Layout) (row : α → Row) (xs : List α) : List (List α) :=
  Group.groups (fun x => Nesting.valuesAt (identity l.keys l.slots) (row x)) xs

/-- Whatever the layout of a level, the groups of rows at any places of a result are those that
the first row that is left makes with all that agree with it in the identity, again and again. So
they have rows, have none in common, come in the order in which they show up, keep the order of
their rows, and together are the rows with an identity. The groups of the rows themselves are the
same. -/
theorem groupsAt_eq_worklist (l : Layout) (rows : List Row) (places : List (Fin rows.length)) :
    l.groupsAt rows.get places = Group.worklist (identity l.keys l.slots) rows.get places ∧
    Group.FallsInto (identity l.keys l.slots) rows.get places (l.groupsAt rows.get places) ∧
    Group.groups (Nesting.valuesAt (identity l.keys l.slots)) (places.map rows.get) =
      (l.groupsAt rows.get places).map (List.map rows.get) := by
  have same : l.groupsAt rows.get places =
      Group.worklist (identity l.keys l.slots) rows.get places :=
    Group.groups_eq_worklist _ _ _
  refine ⟨same, ?_, Group.groups_map _ _ _⟩
  rw [same]
  exact Group.fallsInto_worklist _ _ _

/-- Rows with a key that is null throughout are in no group. -/
example : groupsAt ⟨[0], []⟩
    (List.get [[.text "a", .null], [.null, .text "x"], [.text "b", .null], [.text "a", .text "y"]])
    (List.finRange 4) = [[0, 3], [2]] := by
  decide

end Layout

end EntityGraph
