import EntityGraph.Proofs.Draft.Levels
import EntityGraph.Proofs.Model.Build
import EntityGraph.Proofs.Schema.Constraints

/-!
# What the joins of a draft combine

The joins for a level find, for a row of the level before it, the rows behind the link, or a
missing row where rows may be missing. So the combinations of a draft can be taken apart and
put together level by level: one row at a level may be exchanged for another one behind the
same link, and nothing that is not below it has to change.
-/
namespace EntityGraph

variable {m : Model}

/-- Whether a row is behind a link of another one, through a row of the pivot if there is one. -/
def Link.Behind (db : Database) (m : Model) (link : Link m.size) (t t' : Tuple) : Prop :=
  t' ∈ db.rows (m.get link.target).table ∧
  match link.pivot with
  | none => db.collation.agree link.keyPairs t t' = true
  | some step => ∃ p ∈ db.rows (m.get step.source).table,
    db.collation.agree link.keyPairs t p = true ∧ db.collation.agree step.keyPairs p t' = true

namespace Database

variable (db : Database)

/-- The rows of a table that a join finds for a row. -/
def matching (kind : JoinKind) (table : String) (pairs : List (String × String)) (t : Tuple) :
    List Tuple :=
  let all := (db.rows table).filter (db.collation.agree pairs t)
  match kind with
  | .inner => all
  | .leftOuter => if all.isEmpty then [Tuple.missing] else all

theorem found_joinOn (kind : JoinKind) (table tableAlias left : String)
    (pairs : List (String × String)) (e : Scope) :
    Join.found db.collation db.rows ⟨kind, table, tableAlias, joinOn left pairs⟩ e =
      db.matching kind table pairs (e left) := by
  have same : Join.matched db.collation ⟨kind, table, tableAlias, joinOn left pairs⟩ e =
      db.collation.agree pairs (e left) := by
    funext t
    simp [Join.matched, Collation.agree, joinOn, List.all_map, Function.comp_def, Scope.reading]
  cases kind with
  | inner => simp only [Join.found, matching, same]
  | leftOuter => simp only [Join.found, matching, same]

variable {db}

theorem mem_matching {kind : JoinKind} {table : String} {pairs : List (String × String)}
    {t t' : Tuple} (mem : t' ∈ db.matching kind table pairs t) :
    t' ∈ db.rows table ∧ db.collation.agree pairs t t' = true ∨
      kind = .leftOuter ∧ t' = Tuple.missing ∧
        ∀ r ∈ db.rows table, db.collation.agree pairs t r = false := by
  unfold matching at mem
  cases kind with
  | inner => exact Or.inl (List.mem_filter.mp mem)
  | leftOuter =>
    simp only at mem
    split at mem
    · rename_i none
      refine Or.inr ⟨rfl, List.mem_singleton.mp mem, fun r inside => ?_⟩
      have empty := List.isEmpty_iff.mp none
      simpa using List.filter_eq_nil_iff.mp empty r inside
    · exact Or.inl (List.mem_filter.mp mem)

theorem mem_matching_of_agree {kind : JoinKind} {table : String} {pairs : List (String × String)}
    {t t' : Tuple} (inside : t' ∈ db.rows table) (agree : db.collation.agree pairs t t' = true) :
    t' ∈ db.matching kind table pairs t := by
  have mem : t' ∈ (db.rows table).filter (db.collation.agree pairs t) :=
    List.mem_filter.mpr ⟨inside, agree⟩
  unfold matching
  cases kind with
  | inner => exact mem
  | leftOuter =>
    simp only
    split
    · rename_i none
      rw [List.isEmpty_iff.mp none] at mem
      cases mem
    · exact mem

theorem matching_outer_ne_nil (table : String) (pairs : List (String × String)) (t : Tuple) :
    db.matching .leftOuter table pairs t ≠ [] := by
  unfold matching
  simp only
  split
  · simp
  · rename_i some
    exact fun none => some (List.isEmpty_iff.mpr none)

/-- Nothing is equal to a missing row. -/
theorem agree_missing {pairs : List (String × String)} (some : pairs ≠ []) (t : Tuple) :
    db.collation.agree pairs Tuple.missing t = false := by
  obtain ⟨p, rest, rfl⟩ := List.exists_cons_of_ne_nil some
  rw [Bool.eq_false_iff, ne_eq, db.collation.agree_iff]
  intro all
  exact (all p List.mem_cons_self).1 rfl

end Database

namespace Link

/-- What the joins for a link find for a row: rows of the pivot, if there is one, each with
rows of the target. -/
def reached (db : Database) (m : Model) (kind : JoinKind) (link : Link m.size) (t : Tuple) :
    List (Tuple × Tuple) :=
  match link.pivot with
  | none =>
    (db.matching kind (m.get link.target).table link.keyPairs t).map fun t' => (Tuple.missing, t')
  | some step =>
    (db.matching kind (m.get step.source).table link.keyPairs t).flatMap fun p =>
      (db.matching kind (m.get link.target).table step.keyPairs p).map fun t' => (p, t')

variable {db : Database} {link : Link m.size} {kind : JoinKind} {t t' : Tuple}

/-- The joins find rows behind the link; where rows may be missing, also a missing row, over a
single key only if there is none behind the link. -/
theorem behind_of_reached {p : Tuple} (keys : ∀ step, link.pivot = some step → step.keyPairs ≠ [])
    (mem : (p, t') ∈ reached db m kind link t) :
    link.Behind db m t t' ∨ kind = .leftOuter ∧ t' = Tuple.missing ∧
      (link.pivot = none → ∀ r, ¬ link.Behind db m t r) := by
  unfold reached at mem
  unfold Behind
  cases pivot : link.pivot with
  | none =>
    simp only [pivot] at mem ⊢
    obtain ⟨r, found, same⟩ := List.mem_map.mp mem
    obtain ⟨-, rfl⟩ := Prod.mk.inj same
    rcases Database.mem_matching found with inside | ⟨outer, missing, none⟩
    · exact Or.inl inside
    · refine Or.inr ⟨outer, missing, fun _ r behind => ?_⟩
      rw [none r behind.1] at behind
      cases behind.2
  | some step =>
    simp only [pivot] at mem ⊢
    obtain ⟨q, first, second⟩ := List.mem_flatMap.mp mem
    obtain ⟨r, found, same⟩ := List.mem_map.mp second
    obtain ⟨rfl, rfl⟩ := Prod.mk.inj same
    rcases Database.mem_matching found with ⟨inside, agree⟩ | ⟨outer, missing, -⟩
    · rcases Database.mem_matching first with ⟨insideQ, agreeQ⟩ | ⟨-, rfl, -⟩
      · exact Or.inl ⟨inside, q, insideQ, agreeQ, agree⟩
      · rw [Database.agree_missing (keys step pivot)] at agree
        cases agree
    · exact Or.inr ⟨outer, missing, fun absent => by cases absent⟩

theorem reached_of_behind (behind : link.Behind db m t t') :
    ∃ p, (p, t') ∈ reached db m kind link t := by
  unfold Behind at behind
  unfold reached
  cases pivot : link.pivot with
  | none =>
    simp only [pivot] at behind ⊢
    exact ⟨Tuple.missing, List.mem_map.mpr
      ⟨t', Database.mem_matching_of_agree behind.1 behind.2, rfl⟩⟩
  | some step =>
    simp only [pivot] at behind ⊢
    obtain ⟨inside, p, insideP, agreeP, agree⟩ := behind
    refine ⟨p, List.mem_flatMap.mpr ⟨p, Database.mem_matching_of_agree insideP agreeP, ?_⟩⟩
    exact List.mem_map.mpr ⟨t', Database.mem_matching_of_agree inside agree, rfl⟩

theorem reached_outer_ne_nil : reached db m .leftOuter link t ≠ [] := by
  unfold reached
  cases link.pivot with
  | none => simpa using Database.matching_outer_ne_nil _ _ _
  | some step =>
    obtain ⟨p, first⟩ := List.exists_mem_of_ne_nil _
      (@Database.matching_outer_ne_nil db (m.get step.source).table link.keyPairs t)
    obtain ⟨r, second⟩ := List.exists_mem_of_ne_nil _
      (@Database.matching_outer_ne_nil db (m.get link.target).table step.keyPairs p)
    exact List.ne_nil_of_mem (List.mem_flatMap.mpr ⟨p, first, List.mem_map_of_mem second⟩)

end Link

end EntityGraph
