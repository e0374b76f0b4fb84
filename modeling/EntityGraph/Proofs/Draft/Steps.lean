import EntityGraph.Proofs.Draft.Growth

/-!
# What steps do

What a step of drafting has done where it succeeds, one statement for each kind of step. How far a
field is followed and where a path leads are read off these, and the steps themselves are not
opened again.
-/
namespace EntityGraph.Drafting

variable {m : Model} {d d' : Draft m}

/-! ## Selecting -/

/-- How a field of a level is selected: as a scalar, by columns of a key that the level holds
itself, or behind a join. -/
inductive Selects (level : Level m) (name : String) (children : List Selection) (d d' : Draft m) :
    Prop where
  | scalar {field : Field m.size} {s : Scalar} (named : field.name = name)
      (found : level.entity.field? field.name = some field) (store : field.store = .scalar s)
      (bare : children = [])
      (same : d.projectAll
        [(⟨level.tableAlias, s.column⟩, Path.child level.path field.name)] = d')
  | held {field : Field m.size} {link : Link m.size} {columns : List (String × String)}
      (named : field.name = name) (links : level.Links field link) (filled : children ≠ [])
      (elided : elidedColumns? m link children = some columns)
      (same : d.projectAll (columns.map fun (child, column) =>
        (⟨level.tableAlias, column⟩, Path.child (Path.child level.path field.name) child)) = d')
  | joined {field : Field m.size} {link : Link m.size} {next : Level m} {d₁ : Draft m}
      (named : field.name = name) (links : level.Links field link) (filled : children ≠ [])
      (crossed : elidedColumns? m link children = none)
      (joins : join level field d = .ok next d₁)
      (below : selectFields next children (d₁.projectAll next.keyColumns) = .ok () d')

theorem selectField_eq_ok {level : Level m} {name : String} {children : List Selection} :
    selectField level ⟨name, children⟩ d = .ok () d' ↔ Selects level name children d d' := by
  constructor
  · intro ok
    unfold selectField at ok
    obtain ⟨field, d₁, looks, ok⟩ := bind_eq_ok.mp ok
    obtain ⟨here, found, rfl⟩ := field_of_lift looks
    have named := Entity.name_of_field? here
    have threw : ∀ {e : Error} {rest : Drafting m Unit},
        (throw e >>= fun _ : Unit => rest) d ≠ .ok () d' := fun ok => by
      obtain ⟨u, d₂, threw, -⟩ := bind_eq_ok.mp ok
      exact throw_ne_ok threw
    cases store : field.store with
    | scalar s =>
      simp only [store] at ok
      split at ok
      · exact absurd ok threw
      · rename_i empty
        exact .scalar named found store (by simpa using empty) (project_eq_ok.mp ok)
    | link link =>
      simp only [store] at ok
      split at ok
      · exact absurd ok threw
      · rename_i nonempty
        have filled : children ≠ [] := by simpa using nonempty
        cases elided : elidedColumns? m link children with
        | some columns =>
          simp only [elided] at ok
          exact .held named ⟨found, store⟩ filled elided (project_eq_ok.mp ok)
        | none =>
          simp only [elided] at ok
          obtain ⟨next, d₁, joins, ok⟩ := bind_eq_ok.mp ok
          obtain ⟨u, d₂, projects, below⟩ := bind_eq_ok.mp ok
          obtain rfl := project_eq_ok.mp projects
          exact .joined named ⟨found, store⟩ filled elided joins below
  · intro selects
    have looks : ∀ {field : Field m.size}, level.entity.field? field.name = some field →
        (lift (level.entity.field field.name) : Drafting m _) d = .ok field d := fun found =>
      lift_eq_ok.mpr ⟨Entity.field_eq_ok.mpr found, rfl⟩
    unfold selectField
    cases selects with
    | scalar named found store bare same =>
      subst named
      refine bind_eq_ok.mpr ⟨_, d, looks found, ?_⟩
      simpa [store, bare] using project_eq_ok.mpr same
    | held named links filled elided same =>
      subst named
      refine bind_eq_ok.mpr ⟨_, d, looks links.1, ?_⟩
      simpa [links.2, filled, elided] using project_eq_ok.mpr same
    | joined named links filled crossed joins below =>
      subst named
      refine bind_eq_ok.mpr ⟨_, d, looks links.1, ?_⟩
      simp only [links.2, List.isEmpty_iff, filled, if_false, crossed]
      exact bind_eq_ok.mpr ⟨_, _, joins, bind_eq_ok.mpr ⟨(), _, project_eq_ok.mpr rfl, below⟩⟩

theorem selectFields_nil_eq_ok {level : Level m} :
    selectFields level [] d = .ok () d' ↔ d = d' := by
  rw [selectFields, pure_eq_ok, and_iff_right rfl]

theorem selectFields_cons_eq_ok {level : Level m} {item : Selection} {rest : List Selection} :
    selectFields level (item :: rest) d = .ok () d' ↔
      ∃ d₁, selectField level item d = .ok () d₁ ∧ selectFields level rest d₁ = .ok () d' := by
  rw [selectFields, bind_eq_ok]
  constructor
  · rintro ⟨u, d₁, first, later⟩
    exact ⟨d₁, first, later⟩
  · rintro ⟨d₁, first, later⟩
    exact ⟨(), d₁, first, later⟩

/-- The key of the root is selected first; then what is wanted, or all scalars. -/
theorem select_eq_ok {selection : List Selection} : select selection d = .ok () d' ↔
    selection = [] ∧ (d.projectAll d.root.keyColumns).projectAll d.root.scalarColumns = d' ∨
      selection ≠ [] ∧
        selectFields d.root selection (d.projectAll d.root.keyColumns) = .ok () d' := by
  rw [← List.isEmpty_iff, Ne, ← List.isEmpty_iff]
  unfold select
  constructor
  · intro ok
    obtain ⟨root, d₀, gets, ok⟩ := bind_eq_ok.mp ok
    obtain ⟨rfl, rfl⟩ := get_eq_ok.mp gets
    obtain ⟨u, d₁, projects, ok⟩ := bind_eq_ok.mp ok
    obtain rfl := project_eq_ok.mp projects
    split at ok
    · rename_i empty
      exact Or.inl ⟨empty, project_eq_ok.mp ok⟩
    · rename_i filled
      exact Or.inr ⟨filled, ok⟩
  · intro ways
    refine bind_eq_ok.mpr ⟨d, d, rfl, bind_eq_ok.mpr ⟨(), _, project_eq_ok.mpr rfl, ?_⟩⟩
    obtain ⟨empty, same⟩ | ⟨filled, ok⟩ := ways
    · rw [if_pos empty]
      exact project_eq_ok.mpr same
    · rwa [if_neg filled]

/-! ## Following and resolving -/

theorem follow_cons_eq_ok {level l : Level m} {name : String} {rest : List String} :
    follow level (name :: rest) d = .ok l d' ↔ ∃ field next d₁, field.name = name ∧
      level.entity.field? field.name = some field ∧ join level field d = .ok next d₁ ∧
        follow next rest d₁ = .ok l d' := by
  rw [follow]
  constructor
  · intro ok
    obtain ⟨field, d₀, looks, ok⟩ := bind_eq_ok.mp ok
    obtain ⟨here, found, rfl⟩ := field_of_lift looks
    obtain ⟨next, d₁, joins, ok⟩ := bind_eq_ok.mp ok
    exact ⟨field, next, d₁, Entity.name_of_field? here, found, joins, ok⟩
  · rintro ⟨field, next, d₁, rfl, found, joins, ok⟩
    exact bind_eq_ok.mpr ⟨field, d, lift_eq_ok.mpr ⟨Entity.field_eq_ok.mpr found, rfl⟩,
      bind_eq_ok.mpr ⟨next, d₁, joins, ok⟩⟩

theorem scalarAt_eq_ok {level : Level m} {name : String} {r : Resolved m} :
    scalarAt level name d = .ok r d' ↔ d = d' ∧ ∃ f s, level.entity.field? name = some f ∧
      f.store = .scalar s ∧ r = ⟨⟨level.tableAlias, s.column⟩, f, s⟩ := by
  unfold scalarAt
  constructor
  · intro ok
    obtain ⟨f, d₀, looks, ok⟩ := bind_eq_ok.mp ok
    obtain ⟨found, -, rfl⟩ := field_of_lift looks
    obtain ⟨s, d₀, reads, ok⟩ := bind_eq_ok.mp ok
    obtain ⟨store, rfl⟩ := lift_eq_ok.mp reads
    obtain ⟨rfl, rfl⟩ := pure_eq_ok.mp ok
    exact ⟨rfl, f, s, found, Field.scalar_eq_ok.mp store, rfl⟩
  · rintro ⟨rfl, f, s, found, store, rfl⟩
    exact bind_eq_ok.mpr ⟨f, d, lift_eq_ok.mpr ⟨Entity.field_eq_ok.mpr found, rfl⟩,
      bind_eq_ok.mpr ⟨s, d, lift_eq_ok.mpr ⟨Field.scalar_eq_ok.mpr store, rfl⟩, rfl⟩⟩

theorem keyField_eq_ok {root : Level m} {path name : String} {names : List String} :
    keyField root path names = .ok name ↔ ∃ head f, names = [head, name] ∧
      root.entity.field? name = some f ∧ f.primaryKey = true := by
  constructor
  · intro ok
    unfold keyField at ok
    split at ok
    · rename_i head name'
      obtain ⟨f, found, ok⟩ := Outcome.bind_eq_ok.mp ok
      split at ok
      · rename_i inKey
        obtain rfl := Outcome.pure_eq_ok.mp ok
        exact ⟨head, f, rfl, Entity.field_eq_ok.mp found, inKey⟩
      · cases ok
    · cases ok
  · rintro ⟨head, f, rfl, found, inKey⟩
    refine Outcome.bind_eq_ok.mpr ⟨f, Entity.field_eq_ok.mpr found, ?_⟩
    rw [if_pos inKey]
    rfl

/-- A path is the reserved name before a field of the key, or names of links that are followed to
a scalar. -/
theorem resolve_eq_ok {path : String} {r : Resolved m} : resolve path d = .ok r d' ↔
    (∃ f : Field m.size, Path.segments path = [Path.keySegment, f.name] ∧
      d.root.entity.field? f.name = some f ∧ f.primaryKey = true ∧
      scalarAt d.root f.name d = .ok r d') ∨
    (Path.segments path).head? ≠ some Path.keySegment ∧ ∃ l d₁,
      follow d.root (Path.segments path).dropLast d = .ok l d₁ ∧
        scalarAt l ((Path.segments path).getLastD "") d₁ = .ok r d' := by
  constructor
  · intro ok
    unfold resolve at ok
    obtain ⟨root, d₀, gets, ok⟩ := bind_eq_ok.mp ok
    obtain ⟨rfl, rfl⟩ := get_eq_ok.mp gets
    split at ok
    · rename_i reserved
      obtain ⟨name, d₀, lifts, ok⟩ := bind_eq_ok.mp ok
      obtain ⟨keyOk, rfl⟩ := lift_eq_ok.mp lifts
      obtain ⟨head, f, below, found, inKey⟩ := keyField_eq_ok.mp keyOk
      obtain rfl := Entity.name_of_field? found
      rw [below, List.head?_cons, beq_iff_eq, Option.some_inj] at reserved
      exact Or.inl ⟨f, reserved ▸ below, found, inKey, ok⟩
    · rename_i unreserved
      obtain ⟨l, d₁, follows, ok⟩ := bind_eq_ok.mp ok
      exact Or.inr ⟨by simpa using unreserved, l, d₁, follows, ok⟩
  · intro ways
    refine bind_eq_ok.mpr ⟨d, d, get_eq_ok.mpr ⟨rfl, rfl⟩, ?_⟩
    obtain ⟨f, below, found, inKey, ok⟩ | ⟨unreserved, l, d₁, follows, ok⟩ := ways
    · have named : keyField d.root path (Path.segments path) = .ok f.name :=
        keyField_eq_ok.mpr ⟨Path.keySegment, f, below, found, inKey⟩
      rw [if_pos (by simp [below])]
      exact bind_eq_ok.mpr ⟨f.name, d, lift_eq_ok.mpr ⟨named, rfl⟩, ok⟩
    · rw [if_neg (by simpa using unreserved)]
      exact bind_eq_ok.mpr ⟨l, d₁, follows, ok⟩

end EntityGraph.Drafting
