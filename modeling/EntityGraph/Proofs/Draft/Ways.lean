import EntityGraph.Proofs.Draft.Resolve

/-!
# Ways over links

Where a path leads is for the model to say, and not for the draft in which it is resolved: the
levels on its way, and the column at its end. The levels of a draft are those on the ways of all
that has been selected and resolved, in whatever order.
-/
namespace EntityGraph

variable {m : Model} {entity : Entity m.size}

namespace Level

/-- The levels behind links that are followed one after the other. -/
def way? (l : Level m) : List String → Option (List (Level m))
  | [] => some []
  | name :: rest =>
    match l.entity.field? name with
    | none => none
    | some field =>
      match field.store with
      | .scalar _ => none
      | .link link => ((l.below field link).way? rest).map (l.below field link :: ·)

/-- The levels on the way of a path. A path within the root has none on its way, and under the
reserved name nothing else can be found. -/
def wayTo? (root : Level m) (path : String) : Option (List (Level m)) :=
  if Path.isRoot path then some []
  else if (Path.segments path).head? = some Path.keySegment then none
  else root.way? (Path.segments path).dropLast

/-- Whether a level is on the way of a path. -/
def OnWay (root : Level m) (path : String) (x : Level m) : Prop :=
  ∃ way, root.wayTo? path = some way ∧ x ∈ way

/-- The scalar of a level that has this name. -/
def scalarAt? (l : Level m) (name : String) : Option (Resolved m) :=
  ((l.entity.field? name).bind Field.asScalar?).map fun (f, s) =>
    ⟨⟨l.tableAlias, s.column⟩, f, s⟩

/-- What a path resolves to. -/
def resolved? (root : Level m) (path : String) : Option (Resolved m) :=
  (root.wayTo? path).bind fun way =>
    (way.getLastD root).scalarAt? ((Path.segments path).getLastD "")

/-- What a path resolves to is a column of the root or of a level on its way. -/
theorem exists_of_resolved {root : Level m} {path : String} {r : Resolved m}
    (found : root.resolved? path = some r) :
    ∃ l, (l = root ∨ root.OnWay path l) ∧ r.column.tableAlias = l.tableAlias := by
  obtain ⟨way, wayTo, here⟩ := Option.bind_eq_some_iff.mp found
  obtain ⟨⟨f, s⟩, -, rfl⟩ := Option.map_eq_some_iff.mp here
  refine ⟨way.getLastD root, ?_, rfl⟩
  cases way with
  | nil => exact Or.inl rfl
  | cons l way =>
    rw [List.getLastD_cons, List.getLastD_eq_getLast?]
    refine Or.inr ⟨l :: way, wayTo, ?_⟩
    cases last : way.getLast? with
    | none => exact List.mem_cons_self
    | some l' => exact List.mem_cons_of_mem _ (List.mem_of_getLast? last)

theorem resolved?_root {path : String} (isRoot : Path.isRoot path = true) :
    (ofRoot entity).resolved? path = (entity.scalarAt? path).map fun (f, s) =>
      ⟨⟨entity.table, s.column⟩, f, s⟩ := by
  rw [resolved?, wayTo?, if_pos isRoot]
  rfl

/-- On the way of names the first level is behind the link with the first name. -/
theorem way?_cons {l : Level m} {name : String} {rest : List String} {field : Field m.size}
    {link : Link m.size} (found : l.entity.field? name = some field)
    (store : field.store = .link link) : l.way? (name :: rest) =
      ((l.below field link).way? rest).map (l.below field link :: ·) := by
  rw [way?, found]
  simp only [store]

theorem way?_ne_nil {l : Level m} {names : List String} (nonempty : names ≠ [])
    {way : List (Level m)} (found : l.way? names = some way) : way ≠ [] := by
  obtain ⟨name, rest, rfl⟩ := List.exists_cons_of_ne_nil nonempty
  rintro rfl
  rw [way?] at found
  split at found
  · cases found
  · split at found
    · cases found
    · obtain ⟨more, -, none⟩ := Option.map_eq_some_iff.mp found
      cases none

/-- A path that leaves the root has levels on its way. -/
theorem wayTo?_ne_nil {root : Level m} {path : String} (cross : Path.isRoot path = false)
    {way : List (Level m)} (found : root.wayTo? path = some way) : way ≠ [] := by
  rw [wayTo?, if_neg (by simp [cross])] at found
  split at found
  · cases found
  · exact way?_ne_nil (Path.dropLast_segments_ne_nil cross) found

end Level

mutual

/-- The levels that are joined for one item of a selection. -/
def Selection.levels (m : Model) (l : Level m) : Selection → List (Level m)
  | ⟨name, children⟩ =>
    match l.entity.field? name with
    | none => []
    | some field =>
      match field.store with
      | .scalar _ => []
      | .link link =>
        if (elidedColumns? m link children).isSome then []
        else l.below field link :: Selection.allLevels m (l.below field link) children

def Selection.allLevels (m : Model) (l : Level m) : List Selection → List (Level m)
  | [] => []
  | item :: rest => Selection.levels m l item ++ Selection.allLevels m l rest

end

section

variable {l : Level m} {name : String} {field : Field m.size} {children : List Selection}

theorem Selection.levels_scalar {s : Scalar} (found : l.entity.field? name = some field)
    (store : field.store = .scalar s) : Selection.levels m l ⟨name, children⟩ = [] := by
  rw [Selection.levels, found]
  simp only [store]

theorem Selection.levels_held {link : Link m.size} {columns : List (String × String)}
    (found : l.entity.field? name = some field) (store : field.store = .link link)
    (elided : elidedColumns? m link children = some columns) :
    Selection.levels m l ⟨name, children⟩ = [] := by
  rw [Selection.levels, found]
  simp [store, elided]

theorem Selection.levels_joined {link : Link m.size} (found : l.entity.field? name = some field)
    (store : field.store = .link link) (crossed : elidedColumns? m link children = none) :
    Selection.levels m l ⟨name, children⟩ =
      l.below field link :: Selection.allLevels m (l.below field link) children := by
  rw [Selection.levels, found]
  simp [store, crossed]

end

namespace Drafting

variable {d d' : Draft m}

section

variable (plain : m.PathNames) (known : entity ∈ m.entities)
include plain known

/-- Joining adds the level behind the link, if it is not there. -/
theorem join_levels (grown : d.Grown entity) {parent level : Level m} (has : d.Has parent)
    {field : Field m.size} (found : parent.entity.field? field.name = some field)
    (ok : join parent field d = .ok level d') : ∃ link, field.store = .link link ∧
      level = parent.below field link ∧ d.Grows d' ∧
      ∀ x, x ∈ d'.levels ↔ x ∈ d.levels ∨ x = parent.below field link := by
  obtain ⟨link, links, same, inside, grows, -⟩ := join_below plain known grown has found ok
  refine ⟨link, links.2, same, grows, fun x => ?_⟩
  obtain ⟨link', store, ⟨there, rfl⟩ | ⟨-, -, rfl⟩⟩ := join_eq_ok.mp ok
  · constructor
    · exact Or.inl
    · rintro (old | rfl)
      · exact old
      · exact same ▸ inside
  · rw [links.2] at store
    obtain rfl := FieldStore.link.inj store
    rw [Draft.addLevel_levels, List.mem_append, List.mem_singleton]

end

mutual

theorem selectField_levels (plain : m.PathNames) (known : entity ∈ m.entities) (item : Selection)
    (level : Level m) (d d' : Draft m) (grown : d.Grown entity) (has : d.Has level)
    (ok : selectField level item d = .ok () d') (x : Level m) :
    x ∈ d'.levels ↔ x ∈ d.levels ∨ x ∈ item.levels m level :=
  match item with
  | ⟨name, children⟩ => by
    cases selectField_eq_ok.mp ok with
    | scalar named found store bare same =>
      subst named same
      simp [Selection.levels_scalar found store]
    | held named links filled elided same =>
      subst named same
      simp [Selection.levels_held links.1 links.2 elided]
    | @joined field link next d₁ named links filled crossed joins below =>
      subst named
      obtain ⟨link', store', rfl, grows, levels⟩ := join_levels plain known grown has links.1 joins
      obtain rfl := (links.unique ⟨links.1, store'⟩ rfl).2
      have inside : level.below field link ∈ d₁.levels := (levels _).mpr (Or.inr rfl)
      have deeper := selectFields_levels plain known children (level.below field link) _ d'
        ((Draft.Grows.trans grown grows).project _)
        (Draft.has_projectAll.mpr (Or.inr inside)) below x
      rw [deeper, Draft.projectAll_levels, levels, or_assoc,
        Selection.levels_joined links.1 links.2 crossed, List.mem_cons]

theorem selectFields_levels (plain : m.PathNames) (known : entity ∈ m.entities)
    (items : List Selection) (level : Level m) (d d' : Draft m) (grown : d.Grown entity)
    (has : d.Has level) (ok : selectFields level items d = .ok () d') (x : Level m) :
    x ∈ d'.levels ↔ x ∈ d.levels ∨ x ∈ Selection.allLevels m level items :=
  match items with
  | [] => by
    obtain rfl := selectFields_nil_eq_ok.mp ok
    simp [Selection.allLevels]
  | item :: rest => by
    obtain ⟨d₁, first, ok⟩ := selectFields_cons_eq_ok.mp ok
    have grows := grows_of_ok (grows_selectField item level d has) first
    have here := selectField_levels plain known item level d d₁ grown has first x
    have later := selectFields_levels plain known rest level d₁ d' (Draft.Grows.trans grown grows)
      (grows.has has) ok x
    rw [later, here, Selection.allLevels, List.mem_append, or_assoc]

end

section

variable (plain : m.PathNames) (known : entity ∈ m.entities)
include plain known

/-- Selecting adds the levels of the items. -/
theorem select_levels {selection : List Selection} (grown : d.Grown entity)
    (ok : select selection d = .ok () d') (x : Level m) :
    x ∈ d'.levels ↔ x ∈ d.levels ∨ x ∈ Selection.allLevels m (Level.ofRoot entity) selection := by
  have isRoot : d.root = Level.ofRoot entity := grown.root_eq
  obtain ⟨rfl, rfl⟩ | ⟨-, ok⟩ := select_eq_ok.mp ok
  · simp [Selection.allLevels]
  · have has : (d.projectAll d.root.keyColumns).Has d.root := Draft.has_projectAll.mpr (Or.inl rfl)
    have levels := selectFields_levels plain known selection d.root _ d' (grown.project _) has ok x
    rwa [Draft.projectAll_levels, isRoot] at levels

theorem select_start_levels {selection : List Selection}
    (ok : select selection (Draft.start m entity) = .ok () d) (x : Level m) :
    x ∈ d.levels ↔ x ∈ Selection.allLevels m (Level.ofRoot entity) selection := by
  have nothing : x ∉ (Draft.start m entity).levels := List.not_mem_nil
  rw [select_levels plain known .refl ok, or_iff_right nothing]

/-- Following names adds the levels on their way. -/
theorem follow_way {names : List String} {level l : Level m} (grown : d.Grown entity)
    (has : d.Has level) (ok : follow level names d = .ok l d') : ∃ way,
      level.way? names = some way ∧ l = way.getLastD level ∧ d.Grows d' ∧ d'.Has l ∧
      ∀ x, x ∈ d'.levels ↔ x ∈ d.levels ∨ x ∈ way := by
  induction names generalizing level d with
  | nil =>
    obtain ⟨rfl, rfl⟩ := pure_eq_ok.mp ok
    exact ⟨[], rfl, rfl, .refl, has, by simp⟩
  | cons name rest ih =>
    obtain ⟨field, next, d₁, rfl, found, joins, ok⟩ := follow_cons_eq_ok.mp ok
    obtain ⟨link, store, rfl, grows, levels⟩ := join_levels plain known grown has found joins
    obtain ⟨way, onward, last, grows', has', levels'⟩ :=
      ih (Draft.Grows.trans grown grows) (Or.inr ((levels _).mpr (Or.inr rfl))) ok
    refine ⟨level.below field link :: way, ?_, ?_, grows.trans grows', has', fun x => ?_⟩
    · rw [Level.way?_cons found store, onward]
      rfl
    · rw [last, List.getLastD_cons]
    · rw [levels', levels, or_assoc, List.mem_cons]

/-- A path resolves to what the model says, and adds the levels on its way. -/
theorem resolve_way {path : String} {r : Resolved m} (grown : d.Grown entity)
    (ok : resolve path d = .ok r d') : (Level.ofRoot entity).resolved? path = some r ∧
      ∃ way, (Level.ofRoot entity).wayTo? path = some way ∧
        ∀ x, x ∈ d'.levels ↔ x ∈ d.levels ∨ x ∈ way := by
  cases within : Path.isRoot path with
  | true =>
    obtain ⟨rfl, f, s, found, rfl⟩ := resolve_root within grown ok
    refine ⟨?_, [], by rw [Level.wayTo?, if_pos within], by simp⟩
    rw [Level.resolved?_root within, found]
    rfl
  | false =>
    have isRoot : d.root = Level.ofRoot entity := grown.root_eq
    obtain ⟨f, below, -⟩ | ⟨unreserved, level, d₁, follows, ok⟩ := resolve_eq_ok.mp ok
    · rw [Path.isRoot_iff.mpr (Or.inr ⟨f.name, below⟩)] at within
      cases within
    · obtain ⟨way, found, rfl, -, -, levels⟩ := follow_way plain known grown (Or.inl rfl) follows
      obtain ⟨rfl, field, s, foundF, store, rfl⟩ := scalarAt_eq_ok.mp ok
      rw [isRoot] at found foundF ⊢
      have wayTo : (Level.ofRoot entity).wayTo? path = some way := by
        rwa [Level.wayTo?, if_neg (by simp [within]), if_neg unreserved]
      refine ⟨?_, way, wayTo, levels⟩
      rw [Level.resolved?, wayTo, Option.bind_some, Level.scalarAt?, foundF]
      simp [Field.asScalar?, store]

end

end Drafting

/-! ## Steps that cross links -/

/-- Whether a draft is another one to which the levels on the ways of these paths have been
joined, and nothing else has been done. -/
structure Draft.Crosses (entity : Entity m.size) (paths : List String) (d d' : Draft m) :
    Prop where
  grows : d.Grows d'
  projections : d'.statement.projections = d.statement.projections
  levels : ∀ x, x ∈ d'.levels ↔
    x ∈ d.levels ∨ ∃ path ∈ paths, (Level.ofRoot entity).OnWay path x

namespace Draft.Crosses

variable {d d' d'' : Draft m} {paths more : List String}

theorem refl : d.Crosses entity [] d :=
  ⟨.refl, rfl, by simp⟩

theorem trans (first : d.Crosses entity paths d') (second : d'.Crosses entity more d'') :
    d.Crosses entity (paths ++ more) d'' := by
  refine ⟨first.grows.trans second.grows, second.projections.trans first.projections,
    fun x => ?_⟩
  rw [second.levels, first.levels, or_assoc]
  simp only [List.mem_append, or_and_right, exists_or]

end Draft.Crosses

namespace Drafting

variable {d d' : Draft m} (plain : m.PathNames) (known : entity ∈ m.entities)
  (grown : d.Grown entity)
include plain known grown

theorem resolve_crosses {path : String} {r : Resolved m} (ok : resolve path d = .ok r d') :
    (Level.ofRoot entity).resolved? path = some r ∧ d.Crosses entity [path] d' := by
  obtain ⟨found, way, wayTo, levels⟩ := resolve_way plain known grown ok
  refine ⟨found, grows_of_ok (grows_resolve _ _) ok, resolve_projections ok, fun x => ?_⟩
  simp [levels, Level.OnWay, wayTo]

omit plain known in
/-- Steps that each cross the links of one path, one after the other. -/
theorem mapM_crosses {α β : Type} {f : α → Drafting m β} {path : α → String}
    {R : α → β → Prop} (each : ∀ x (d : Draft m) y d', d.Grown entity → f x d = .ok y d' →
      R x y ∧ d.Crosses entity [path x] d') {xs : List α} {ys : List β}
    (ok : xs.mapM f d = .ok ys d') :
    List.Forall₂ R xs ys ∧ d.Crosses entity (xs.map path) d' := by
  induction xs generalizing ys d with
  | nil =>
    rw [List.mapM_nil] at ok
    obtain ⟨rfl, rfl⟩ := pure_eq_ok.mp ok
    exact ⟨.nil, .refl⟩
  | cons x xs ih =>
    rw [List.mapM_cons] at ok
    obtain ⟨y, d₁, first, ok⟩ := bind_eq_ok.mp ok
    obtain ⟨here, crosses⟩ := each x d y d₁ grown first
    obtain ⟨more, d₂, rest, ok⟩ := bind_eq_ok.mp ok
    obtain ⟨rfl, rfl⟩ := pure_eq_ok.mp ok
    obtain ⟨later, onward⟩ := ih (Draft.Grows.trans grown crosses.grows) rest
    exact ⟨.cons here later, crosses.trans onward⟩

end Drafting

end EntityGraph
