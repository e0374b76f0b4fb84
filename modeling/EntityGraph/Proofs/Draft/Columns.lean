import Mathlib.Data.List.Induction
import EntityGraph.Proofs.Draft.Levels
import EntityGraph.Proofs.Draft.Steps
import EntityGraph.Proofs.FirstSeen

/-!
# The columns of a selection

A selection that can be drafted names fields that exist, scalars without anything below them
and links with something below. Its columns are named by the paths of what it mentions, in the
order of the mentions, and each leads to the column of the table in which that is found.
-/
namespace EntityGraph

variable {m : Model}

/-! ## Names -/

/-- The names of the key columns at a level. -/
def Entity.keyNames (e : Entity m.size) : List (List String) :=
  e.primaryKey.map fun (f, _) => [Path.keySegment, f.name]

mutual

/-- The names of the columns for one item of a selection, below the level it is for. -/
def Selection.names (m : Model) (e : Entity m.size) : Selection → List (List String)
  | ⟨name, children⟩ =>
    match e.field? name with
    | none => []
    | some field =>
      match field.store with
      | .scalar _ => [[name]]
      | .link link =>
        (if (elidedColumns? m link children).isSome then
          Selection.allNames m (m.get link.target) children
        else (m.get link.target).keyNames ++ Selection.allNames m (m.get link.target) children).map
          (name :: ·)

def Selection.allNames (m : Model) (e : Entity m.size) : List Selection → List (List String)
  | [] => []
  | item :: rest => Selection.names m e item ++ Selection.allNames m e rest

end

/-- Selections that can be drafted. -/
inductive Selection.Fits (m : Model) : Entity m.size → Selection → Prop where
  | scalar {e : Entity m.size} {name : String} {field : Field m.size} {s : Scalar} :
      e.field? name = some field → field.store = .scalar s → Fits m e ⟨name, []⟩
  | link {e : Entity m.size} {name : String} {field : Field m.size} {link : Link m.size}
      {children : List Selection} : e.field? name = some field → field.store = .link link →
      children ≠ [] → (∀ c ∈ children, Fits m (m.get link.target) c) → Fits m e ⟨name, children⟩

/-- The names for a scalar. -/
theorem Selection.names_scalar {e : Entity m.size} {name : String} {field : Field m.size}
    {s : Scalar} {children : List Selection} (found : e.field? name = some field)
    (store : field.store = .scalar s) : Selection.names m e ⟨name, children⟩ = [[name]] := by
  rw [Selection.names, found]
  simp only [store]

/-- The names for a link whose target need not be joined. -/
theorem Selection.names_held {e : Entity m.size} {name : String} {field : Field m.size}
    {link : Link m.size} {children : List Selection} {columns : List (String × String)}
    (found : e.field? name = some field) (store : field.store = .link link)
    (elided : elidedColumns? m link children = some columns) :
    Selection.names m e ⟨name, children⟩ =
      (Selection.allNames m (m.get link.target) children).map (name :: ·) := by
  rw [Selection.names, found]
  simp [store, elided]

/-- The names for a link whose target is joined. -/
theorem Selection.names_joined {e : Entity m.size} {name : String} {field : Field m.size}
    {link : Link m.size} {children : List Selection} (found : e.field? name = some field)
    (store : field.store = .link link) (crossed : elidedColumns? m link children = none) :
    Selection.names m e ⟨name, children⟩ = ((m.get link.target).keyNames ++
      Selection.allNames m (m.get link.target) children).map (name :: ·) := by
  rw [Selection.names, found]
  simp [store, crossed]

theorem Selection.allNames_eq (e : Entity m.size) (items : List Selection) :
    Selection.allNames m e items = items.flatMap (Selection.names m e) := by
  induction items with
  | nil => rfl
  | cons item items ih => rw [Selection.allNames, ih, List.flatMap_cons]

/-! ## Local columns of a key -/

/-- The column of its source that the key of a link matches with a column of the target. -/
def Link.localColumn? {n : Nat} (link : Link n) (foreign : String) : Option String :=
  (link.keyPairs.find? fun (_, f) => f == foreign).map (·.1)

theorem Link.pair_mem {n : Nat} {link : Link n} {foreign column : String}
    (found : link.localColumn? foreign = some column) : (column, foreign) ∈ link.keyPairs := by
  obtain ⟨⟨c, f⟩, pair, rfl⟩ := Option.map_eq_some_iff.mp found
  have matched := List.find?_some pair
  simp only [beq_iff_eq] at matched
  exact matched ▸ List.mem_of_find?_eq_some pair

/-- Whether a wanted field is a scalar of the target of a link that the key matches with a local
column. -/
def Link.Holds (m : Model) (link : Link m.size) (child : Selection) (c : String × String) : Prop :=
  child.children = [] ∧ c.1 = child.name ∧ ∃ field s,
    (m.get link.target).field? child.name = some field ∧ field.store = .scalar s ∧
      link.localColumn? s.column = some c.2

/-- The column of a link's source that holds a wanted field of its target, behind the name of the
field. -/
def Link.held? (m : Model) (link : Link m.size) (child : Selection) : Option (String × String) :=
  if !child.isLeaf then none
  else
    match ((m.get link.target).field? child.name).bind Field.asScalar? with
    | none => none
    | some (_, s) => (link.keyPairs.find? fun (_, foreign) => foreign == s.column).map
        fun (column, _) => (child.name, column)

theorem Link.held?_eq_some {link : Link m.size} {child : Selection} {c : String × String} :
    link.held? m child = some c ↔ link.Holds m child c := by
  have leaf : child.isLeaf = true ↔ child.children = [] := List.isEmpty_iff
  rw [Link.Holds, Link.held?, ← leaf]
  cases child.isLeaf with
  | false => simp
  | true =>
    cases found : (m.get link.target).field? child.name with
    | none => simp
    | some field =>
      cases store : field.store with
      | link other => simp [Field.asScalar?, store]
      | scalar s =>
        obtain ⟨name, column⟩ := c
        simp only [Field.asScalar?, store, Link.localColumn?, Bool.not_true, Bool.false_eq_true,
          if_false, Option.bind_some, Option.map_eq_some_iff, Prod.mk.injEq, true_and]
        constructor
        · rintro ⟨pair, here, rfl, rfl⟩
          exact ⟨rfl, field, s, rfl, store, pair, here, rfl⟩
        · rintro ⟨rfl, field', s', same, store', pair, here, rfl⟩
          obtain rfl := Option.some.inj same
          rw [store] at store'
          obtain rfl := FieldStore.scalar.inj store'
          exact ⟨pair, here, rfl, rfl⟩

theorem elidedColumns?_eq (link : Link m.size) (children : List Selection) :
    elidedColumns? m link children =
      if !link.owner || link.pivot.isSome || link.cardinality.toMany then none
      else children.mapM (link.held? m) :=
  rfl

/-- The target of a link need not be joined where its source holds all that is wanted. -/
theorem elidedColumns?_eq_some {link : Link m.size} {children : List Selection}
    {columns : List (String × String)} : elidedColumns? m link children = some columns ↔
    link.owner = true ∧ link.pivot = none ∧ link.cardinality.toMany = false ∧
      List.Forall₂ (link.Holds m) children columns := by
  rw [elidedColumns?_eq]
  by_cases held : link.owner = true ∧ link.pivot = none ∧ link.cardinality.toMany = false
  · obtain ⟨owner, pivot, one⟩ := held
    rw [if_neg (by simp [owner, pivot, one]), Outcome.mapM_eq_some]
    exact ⟨fun all => ⟨owner, pivot, one, all.imp fun child c => Link.held?_eq_some.mp⟩,
      fun all => all.2.2.2.imp fun child c => Link.held?_eq_some.mpr⟩
  · have crossed : (!link.owner || link.pivot.isSome || link.cardinality.toMany) = true := by
      cases owner : link.owner <;> cases pivot : link.pivot <;>
        cases one : link.cardinality.toMany <;> simp_all
    rw [if_pos crossed]
    constructor
    · intro none
      cases none
    · rintro ⟨owner, pivot, one, -⟩
      exact absurd ⟨owner, pivot, one⟩ held

/-- What holds all that is wanted of a target are columns of the key. -/
theorem held_mem_columns {link : Link m.size} {children : List Selection}
    {held : List (String × String)} (elided : elidedColumns? m link children = some held)
    {c : String × String} (mem : c ∈ held) : c.2 ∈ link.columns := by
  obtain ⟨-, -, -, each⟩ := elidedColumns?_eq_some.mp elided
  obtain ⟨child, -, -, -, f, w, -, -, found⟩ := Outcome.exists_of_mem_right each mem
  exact (List.of_mem_zip (Link.pair_mem found)).1

/-- A source holds what is wanted where it holds each of the wanted fields. -/
theorem exists_elided_of_holds {link : Link m.size} {children : List Selection}
    (owner : link.owner = true) (pivot : link.pivot = none)
    (one : link.cardinality.toMany = false) (each : ∀ child ∈ children, ∃ c, link.Holds m child c) :
    ∃ held, elidedColumns? m link children = some held := by
  have all : ∃ held, List.Forall₂ (link.Holds m) children held := by
    induction children with
    | nil => exact ⟨[], .nil⟩
    | cons child children ih =>
      obtain ⟨c, here⟩ := each child List.mem_cons_self
      obtain ⟨held, rest⟩ := ih fun child mem => each child (List.mem_cons_of_mem _ mem)
      exact ⟨c :: held, .cons here rest⟩
  obtain ⟨held, all⟩ := all
  exact ⟨held, elidedColumns?_eq_some.mpr ⟨owner, pivot, one, all⟩⟩

/-- So it does where less is wanted. -/
theorem exists_elided_of_subset {link : Link m.size} {children fewer : List Selection}
    {held : List (String × String)} (elided : elidedColumns? m link children = some held)
    (sub : fewer ⊆ children) : ∃ held', elidedColumns? m link fewer = some held' := by
  obtain ⟨owner, pivot, one, each⟩ := elidedColumns?_eq_some.mp elided
  refine exists_elided_of_holds owner pivot one fun child mem => ?_
  obtain ⟨c, -, holds⟩ := Outcome.exists_of_mem_left each (sub mem)
  exact ⟨c, holds⟩

/-! ## What a column leads to -/

/-- Whether a column is what these names lead to from a level. -/
inductive Draft.Leads (d : Draft m) : Level m → List String → ColumnRef → Prop where
  | scalar {l : Level m} {field : Field m.size} {s : Scalar} :
      l.entity.field? field.name = some field → field.store = .scalar s →
      Leads d l [field.name] ⟨l.tableAlias, s.column⟩
  | key {l : Level m} {field : Field m.size} {s : Scalar} : (field, s) ∈ l.entity.primaryKey →
      Leads d l [Path.keySegment, field.name] ⟨l.tableAlias, s.column⟩
  | elided {l : Level m} {field wanted : Field m.size} {link : Link m.size} {s : Scalar}
      {column : String} : l.Links field link → link.owner = true → link.pivot = none →
      link.cardinality.toMany = false →
      (m.get link.target).field? wanted.name = some wanted → wanted.store = .scalar s →
      link.localColumn? s.column = some column →
      Leads d l [field.name, wanted.name] ⟨l.tableAlias, column⟩
  | joined {l : Level m} {field : Field m.size} {link : Link m.size} {names : List String}
      {ref : ColumnRef} : l.Links field link → l.below field link ∈ d.levels →
      Leads d (l.below field link) names ref → Leads d l (field.name :: names) ref

theorem Draft.Leads.mono {d d' : Draft m} (grows : d.Grows d') {l : Level m}
    {names : List String} {ref : ColumnRef} (leads : d.Leads l names ref) :
    d'.Leads l names ref := by
  induction leads with
  | scalar found store => exact .scalar found store
  | key mem => exact .key mem
  | elided links owner pivot one found store pair =>
    exact .elided links owner pivot one found store pair
  | joined links inside _ ih => exact .joined links (grows.mem_levels inside) ih

/-! ## Selected columns -/

/-- The selected columns after more have been selected, each under a name that is not taken. -/
def addProjections (projections : List Projection) (columns : List (ColumnRef × String)) :
    List Projection :=
  columns.foldl (fun ps c => if ps.any (·.name == c.2) then ps else ps ++ [⟨c.1, c.2⟩]) projections

theorem addProjections_append (ps : List Projection) (cs ds : List (ColumnRef × String)) :
    addProjections ps (cs ++ ds) = addProjections (addProjections ps cs) ds := by
  simp [addProjections]

theorem Draft.projectAll_projections (d : Draft m) (columns : List (ColumnRef × String)) :
    (d.projectAll columns).statement.projections =
      addProjections d.statement.projections columns := by
  induction columns generalizing d with
  | nil => rfl
  | cons c columns ih =>
    have rest := ih (d.project c.1 c.2)
    have first : (d.project c.1 c.2).statement.projections =
        if d.statement.projections.any (·.name == c.2) then d.statement.projections
        else d.statement.projections ++ [⟨c.1, c.2⟩] := by
      unfold Draft.project Statement.project
      split <;> rfl
    rw [first] at rest
    exact rest

/-- The names are those of all columns, each once, in the order in which they are first seen. -/
theorem addProjections_names (columns : List (ColumnRef × String)) :
    (addProjections [] columns).map (·.name) = (columns.map (·.2)).eraseDups := by
  induction columns using List.reverseRecOn with
  | nil => rfl
  | append_singleton columns c ih =>
    rw [addProjections_append, List.map_append, List.map_singleton, FirstSeen.eraseDups_concat,
      ← ih]
    have taken : ((addProjections [] columns).any (·.name == c.2)) = true ↔
        c.2 ∈ columns.map (·.2) := by
      rw [← List.mem_eraseDups, ← ih]
      simp
    have step : addProjections (addProjections [] columns) [c] =
        if (addProjections [] columns).any (·.name == c.2) then addProjections [] columns
        else addProjections [] columns ++ [⟨c.1, c.2⟩] := rfl
    rw [step]
    by_cases seen : c.2 ∈ columns.map (·.2)
    · rw [if_pos (taken.mpr seen), if_pos seen]
    · rw [if_neg (fun h => seen (taken.mp h)), if_neg seen, List.map_append]
      rfl

/-- Distinct names stay distinct. -/
theorem addProjections_nodup {ps : List Projection} (distinct : (ps.map (·.name)).Nodup)
    (columns : List (ColumnRef × String)) :
    ((addProjections ps columns).map (·.name)).Nodup := by
  induction columns generalizing ps with
  | nil => exact distinct
  | cons c columns ih =>
    refine ih ?_
    simp only
    split
    · exact distinct
    · rename_i free
      have fresh : c.2 ∉ ps.map (·.name) := by simpa using free
      rw [List.map_append, List.map_singleton, ← List.concat_eq_append]
      exact distinct.concat fresh

theorem mem_addProjections {ps : List Projection} {columns : List (ColumnRef × String)}
    {p : Projection} (mem : p ∈ addProjections ps columns) :
    p ∈ ps ∨ (p.column, p.name) ∈ columns := by
  induction columns generalizing ps with
  | nil => exact Or.inl mem
  | cons c columns ih =>
    have step : addProjections ps (c :: columns) = addProjections
        (if ps.any (·.name == c.2) then ps else ps ++ [⟨c.1, c.2⟩]) columns := rfl
    rw [step] at mem
    rcases ih mem with early | late
    · split at early
      · exact Or.inl early
      · rcases List.mem_append.mp early with old | new
        · exact Or.inl old
        · rw [List.mem_singleton.mp new]
          exact Or.inr List.mem_cons_self
    · exact Or.inr (List.mem_cons_of_mem c late)

/-- Whether a draft has selected, after what was selected before, columns that lead where these
names lead from a level. -/
def Draft.Selected (before : List Projection) (d : Draft m) (l : Level m)
    (names : List (List String)) : Prop :=
  ∃ columns : List (ColumnRef × List String), columns.map (·.2) = names ∧
    d.statement.projections =
      addProjections before (columns.map fun c => (c.1, Path.extend l.path c.2)) ∧
    ∀ c ∈ columns, d.Leads l c.2 c.1

namespace Draft.Selected

variable {before : List Projection} {d d' : Draft m} {l : Level m}
  {names more : List (List String)}

theorem nil (same : d.statement.projections = before) : Selected before d l [] :=
  ⟨[], rfl, same, fun _ mem => by cases mem⟩

theorem append (first : Selected before d l names) (grows : d.Grows d')
    (second : Selected d.statement.projections d' l more) :
    Selected before d' l (names ++ more) := by
  obtain ⟨columns, namesEq, projections, leads⟩ := first
  obtain ⟨columns', namesEq', projections', leads'⟩ := second
  refine ⟨columns ++ columns', ?_, ?_, ?_⟩
  · rw [List.map_append, namesEq, namesEq']
  · rw [projections', projections, List.map_append, addProjections_append]
  · intro c mem
    rcases List.mem_append.mp mem with mem | mem
    · exact (leads c mem).mono grows
    · exact leads' c mem

theorem scalar {field : Field m.size} {s : Scalar}
    (found : l.entity.field? field.name = some field) (store : field.store = .scalar s) :
    Selected d.statement.projections
      (d.projectAll [(⟨l.tableAlias, s.column⟩, Path.child l.path field.name)]) l
      [[field.name]] := by
  refine ⟨[(⟨l.tableAlias, s.column⟩, [field.name])], rfl, projectAll_projections _ _, ?_⟩
  intro c mem
  rw [List.mem_singleton.mp mem]
  exact .scalar found store

/-- Columns behind a link are columns of the level before it. -/
theorem under {field : Field m.size} {link : Link m.size} (links : l.Links field link)
    (inside : l.below field link ∈ d.levels)
    (selected : Selected before d (l.below field link) names) :
    Selected before d l (names.map (field.name :: ·)) := by
  obtain ⟨columns, namesEq, projections, leads⟩ := selected
  refine ⟨columns.map fun c => (c.1, field.name :: c.2), ?_, ?_, ?_⟩
  · rw [← namesEq, List.map_map, List.map_map]
    rfl
  · rw [projections, List.map_map]
    rfl
  · intro c mem
    obtain ⟨c', mem', rfl⟩ := List.mem_map.mp mem
    exact .joined links inside (leads c' mem')

theorem keys (l : Level m) : Selected d.statement.projections (d.projectAll l.keyColumns) l
    l.entity.keyNames := by
  refine ⟨l.entity.primaryKey.map fun (f, s) =>
    (⟨l.tableAlias, s.column⟩, [Path.keySegment, f.name]), ?_, ?_, ?_⟩
  · rw [List.map_map]
    rfl
  · rw [projectAll_projections, Level.keyColumns, List.map_map]
    rfl
  · intro c mem
    obtain ⟨⟨f, s⟩, key, rfl⟩ := List.mem_map.mp mem
    exact .key key

end Draft.Selected

namespace Drafting

variable {entity : Entity m.size}

theorem grows_of_ok {α : Type} {x : Drafting m α} {a : α} {d d' : Draft m}
    (grows : d.Grows (after x d)) (ok : x d = .ok a d') : d.Grows d' := by
  rwa [after_of_ok ok] at grows

/-- Joining yields the level behind the link and selects nothing. -/
theorem join_below (plain : m.PathNames) (known : entity ∈ m.entities) {d d' : Draft m}
    (grown : d.Grown entity) {parent level : Level m} (has : d.Has parent) {field : Field m.size}
    (found : parent.entity.field? field.name = some field)
    (ok : join parent field d = .ok level d') : ∃ link, parent.Links field link ∧
      level = parent.below field link ∧ level ∈ d'.levels ∧ d.Grows d' ∧
      d'.statement.projections = d.statement.projections := by
  have grows := grows_of_ok (grows_join has found) ok
  obtain ⟨link, store, ⟨there, rfl⟩ | ⟨-, rfl, rfl⟩⟩ := join_eq_ok.mp ok
  · have inside := Keyed.mem_of_get? there
    refine ⟨link, ⟨found, store⟩, ?_, inside, .refl, rfl⟩
    exact grown.eq_below plain known has ⟨found, store⟩ inside (Keyed.key_of_get? there)
  · refine ⟨link, ⟨found, store⟩, rfl, ?_, grows, Draft.addLevel_projections _ _ _ _⟩
    rw [Draft.addLevel_levels]
    exact List.mem_append_right _ List.mem_cons_self

/-- The fields that a source holds itself can be drafted: they are scalars of the target. -/
theorem fits_of_held {link : Link m.size} {children : List Selection}
    {columns : List (String × String)} (elided : elidedColumns? m link children = some columns) :
    ∀ child ∈ children, Selection.Fits m (m.get link.target) child := by
  intro child mem
  obtain ⟨-, -, -, each⟩ := elidedColumns?_eq_some.mp elided
  obtain ⟨-, -, bare, -, wanted, s, found, store, -⟩ := Outcome.exists_of_mem_left each mem
  obtain ⟨name, below⟩ := child
  obtain rfl : below = [] := bare
  exact .scalar found store

/-- The columns of a key that its source holds itself. -/
theorem selected_held {d : Draft m} {l : Level m} {field : Field m.size} {link : Link m.size}
    (links : l.Links field link) {children : List Selection} {columns : List (String × String)}
    (elided : elidedColumns? m link children = some columns) :
    Draft.Selected d.statement.projections (d.projectAll (columns.map fun (child, column) =>
        (⟨l.tableAlias, column⟩, Path.child (Path.child l.path field.name) child))) l
      ((Selection.allNames m (m.get link.target) children).map (field.name :: ·)) := by
  obtain ⟨owner, pivot, one, each⟩ := elidedColumns?_eq_some.mp elided
  refine ⟨columns.map fun (child, column) => (⟨l.tableAlias, column⟩, [field.name, child]),
    ?_, ?_, ?_⟩
  · clear elided
    induction each with
    | nil => rfl
    | @cons child c children columns here _ ih =>
      obtain ⟨bare, sameName, wanted, s, found, store, -⟩ := here
      obtain ⟨name, below⟩ := child
      obtain rfl : below = [] := bare
      obtain ⟨wantedName, column⟩ := c
      obtain rfl : wantedName = name := sameName
      rw [Selection.allNames, Selection.names_scalar found store, List.map_cons, List.map_cons, ih]
      rfl
  · rw [Draft.projectAll_projections, List.map_map]
    rfl
  · intro c mem
    obtain ⟨⟨childName, column⟩, memC, rfl⟩ := List.mem_map.mp mem
    obtain ⟨child, -, -, sameName, wanted, s, found, store, pair⟩ :=
      Outcome.exists_of_mem_right each memC
    have name := Entity.name_of_field? found
    simp only at sameName pair
    rw [sameName, ← name]
    exact .elided links owner pivot one (name.symm ▸ found) store pair

mutual

theorem selectField_selected (plain : m.PlainNames) (known : entity ∈ m.entities)
    (item : Selection) (level : Level m) (d d' : Draft m) (grown : d.Grown entity)
    (has : d.Has level) (ok : selectField level item d = .ok () d') :
    Selection.Fits m level.entity item ∧
      d'.Selected d.statement.projections level (Selection.names m level.entity item) :=
  match item with
  | ⟨name, children⟩ => by
    cases selectField_eq_ok.mp ok with
    | @scalar field s named found store bare same =>
      subst named bare same
      rw [Selection.names_scalar found store]
      exact ⟨.scalar found store, .scalar found store⟩
    | held named links filled elided same =>
      subst named same
      rw [Selection.names_held links.1 links.2 elided]
      exact ⟨.link links.1 links.2 filled (fits_of_held elided), selected_held links elided⟩
    | @joined field link next d₁ named links filled crossed joins below =>
      subst named
      obtain ⟨link', links', rfl, inside, grows, projections⟩ :=
        join_below plain.paths known grown has links.1 joins
      obtain rfl := (links.unique links' rfl).2
      have has₁ : (d₁.projectAll (level.below field link).keyColumns).Has (level.below field link) :=
        Draft.has_projectAll.mpr (Or.inr inside)
      obtain ⟨fits, selected⟩ := selectFields_selected plain known children
        (level.below field link) _ d' ((Draft.Grows.trans grown grows).project _) has₁ below
      have later := grows_of_ok (grows_selectFields children _ _ has₁) below
      -- what the level behind the link selects follows its key
      have all := (Draft.Selected.keys (level.below field link)).append later selected
      rw [projections] at all
      rw [Selection.names_joined links.1 links.2 crossed]
      refine ⟨.link links.1 links.2 filled fits, all.under links (later.mem_levels ?_)⟩
      rwa [Draft.projectAll_levels]

theorem selectFields_selected (plain : m.PlainNames) (known : entity ∈ m.entities)
    (items : List Selection) (level : Level m) (d d' : Draft m) (grown : d.Grown entity)
    (has : d.Has level) (ok : selectFields level items d = .ok () d') :
    (∀ item ∈ items, Selection.Fits m level.entity item) ∧
      d'.Selected d.statement.projections level (Selection.allNames m level.entity items) :=
  match items with
  | [] => by
    obtain rfl := selectFields_nil_eq_ok.mp ok
    exact ⟨fun _ mem => (by cases mem), Draft.Selected.nil rfl⟩
  | item :: rest => by
    obtain ⟨d₁, first, ok⟩ := selectFields_cons_eq_ok.mp ok
    have grows := grows_of_ok (grows_selectField item level d has) first
    obtain ⟨fits, selected⟩ := selectField_selected plain known item level d d₁ grown has first
    obtain ⟨fits', selected'⟩ := selectFields_selected plain known rest level d₁ d'
      (Draft.Grows.trans grown grows) (grows.has has) ok
    refine ⟨fun i mem => ?_, selected.append
      (grows_of_ok (grows_selectFields rest level d₁ (grows.has has)) ok) selected'⟩
    rcases List.mem_cons.mp mem with rfl | mem
    · exact fits
    · exact fits' i mem

end

end Drafting

end EntityGraph
