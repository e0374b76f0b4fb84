import EntityGraph.Proofs.Draft.Columns

/-!
# Paths resolved in a draft

Resolving a path joins what the path crosses and selects nothing. A path that stays within the
root joins nothing either: it names a column of the root itself.
-/
namespace EntityGraph

variable {m : Model} {entity : Entity m.size}

/-- The scalar of the entity itself that a path names, by its last name. -/
def Entity.scalarAt? (e : Entity m.size) (path : String) : Option (Field m.size × Scalar) :=
  (e.field? ((Path.segments path).getLastD "")).bind Field.asScalar?

theorem Entity.mem_of_scalarAt? {e : Entity m.size} {path : String} {f : Field m.size}
    {s : Scalar} (h : e.scalarAt? path = some (f, s)) : (f, s) ∈ e.scalars := by
  obtain ⟨g, found, same⟩ := Option.bind_eq_some_iff.mp h
  exact List.mem_filterMap.mpr ⟨g, Entity.mem_of_field? found, same⟩

/-- What is wanted of a root: what the selection says, and where it says nothing all scalars. -/
def Entity.wanted (e : Entity m.size) (selection : List Selection) : List Selection :=
  if selection.isEmpty then e.scalars.map fun (f, _) => ⟨f.name, []⟩ else selection

/-- The level of the root. -/
def Level.ofRoot (e : Entity m.size) : Level m :=
  ⟨"", e.table, e, false⟩

namespace Drafting

variable {d d' : Draft m} {α β : Type}

theorem select_selected (plain : m.PlainNames) (known : entity ∈ m.entities)
    (distinct : (entity.fields.map (·.name)).Nodup) {selection : List Selection}
    (ok : select selection (Draft.start m entity) = .ok () d) :
    (∀ item ∈ entity.wanted selection, Selection.Fits m entity item) ∧
      d.Selected [] (Level.ofRoot entity)
        (entity.keyNames ++ Selection.allNames m entity (entity.wanted selection)) := by
  have keys := Draft.Selected.keys (d := Draft.start m entity) (Level.ofRoot entity)
  obtain ⟨rfl, rfl⟩ | ⟨filled, ok⟩ := select_eq_ok.mp ok
  · have found : ∀ p ∈ entity.scalars, entity.field? p.1.name = some p.1 ∧
        p.1.store = .scalar p.2 := by
      rintro ⟨f, s⟩ mem
      obtain ⟨inside, store⟩ := Entity.mem_scalars.mp mem
      exact ⟨Keyed.get?_of_mem distinct inside, store⟩
    have names : Selection.allNames m entity (entity.wanted []) =
        entity.scalars.map fun (f, _) => [f.name] := by
      change Selection.allNames m entity (entity.scalars.map fun (f, _) => ⟨f.name, []⟩) = _
      rw [Selection.allNames_eq, List.flatMap_map]
      have each : ∀ p ∈ entity.scalars, Selection.names m entity ⟨p.1.name, []⟩ = [[p.1.name]] :=
        fun p mem => Selection.names_scalar (found p mem).1 (found p mem).2
      rw [List.flatMap_congr each, ← List.map_eq_flatMap]
    refine ⟨?_, keys.append (.project _ .refl) ?_⟩
    · intro item mem
      obtain ⟨p, inside, rfl⟩ := List.mem_map.mp mem
      exact .scalar (found p inside).1 (found p inside).2
    · rw [names]
      refine ⟨entity.scalars.map fun (f, s) => (⟨entity.table, s.column⟩, [f.name]), ?_, ?_, ?_⟩
      · rw [List.map_map]
        rfl
      · rw [Draft.projectAll_projections, Level.scalarColumns, List.map_map]
        rfl
      · intro c mem
        obtain ⟨p, inside, rfl⟩ := List.mem_map.mp mem
        exact .scalar (found p inside).1 (found p inside).2
  · have wanted : entity.wanted selection = selection := if_neg (by simpa using filled)
    have has : ((Draft.start m entity).projectAll (Level.ofRoot entity).keyColumns).Has
        (Level.ofRoot entity) := Draft.has_projectAll.mpr (Or.inl rfl)
    obtain ⟨fits, selected⟩ := selectFields_selected plain known selection (Level.ofRoot entity)
      _ d (.project _ .refl) has ok
    rw [wanted]
    exact ⟨fits, keys.append (grows_of_ok (grows_selectFields _ _ _ has) ok) selected⟩

/-! ## Resolving -/

theorem join_projections {parent level : Level m} {field : Field m.size}
    (ok : join parent field d = .ok level d') :
    d'.statement.projections = d.statement.projections := by
  obtain ⟨link, -, ⟨-, rfl⟩ | ⟨-, -, rfl⟩⟩ := join_eq_ok.mp ok
  · rfl
  · exact Draft.addLevel_projections _ _ _ _

theorem follow_projections {names : List String} {level joined : Level m}
    (ok : follow level names d = .ok joined d') :
    d'.statement.projections = d.statement.projections := by
  induction names generalizing level d with
  | nil =>
    obtain ⟨-, rfl⟩ := pure_eq_ok.mp ok
    rfl
  | cons name rest ih =>
    obtain ⟨field, next, d₁, -, -, joins, ok⟩ := follow_cons_eq_ok.mp ok
    rw [ih ok, join_projections joins]

theorem resolve_projections {path : String} {r : Resolved m}
    (ok : resolve path d = .ok r d') : d'.statement.projections = d.statement.projections := by
  obtain ⟨f, -, -, -, ok⟩ | ⟨-, l, d₁, follows, ok⟩ := resolve_eq_ok.mp ok
  · obtain ⟨rfl, -⟩ := scalarAt_eq_ok.mp ok
    rfl
  · obtain ⟨rfl, -⟩ := scalarAt_eq_ok.mp ok
    exact follow_projections follows

/-- Names that are followed lead to a level that is there, behind the first of them to a joined
one. -/
theorem follow_has {names : List String} {level l : Level m} (has : d.Has level)
    (ok : follow level names d = .ok l d') : d'.Has l ∧ (names ≠ [] → l ∈ d'.levels) := by
  induction names generalizing level d with
  | nil =>
    obtain ⟨rfl, rfl⟩ := pure_eq_ok.mp ok
    exact ⟨has, fun some => absurd rfl some⟩
  | cons name rest ih =>
    obtain ⟨field, next, d₁, -, -, joins, ok⟩ := follow_cons_eq_ok.mp ok
    have joined := join_mem joins
    refine ⟨(ih (Or.inr joined) ok).1, fun _ => ?_⟩
    cases rest with
    | nil =>
      obtain ⟨rfl, rfl⟩ := pure_eq_ok.mp ok
      exact joined
    | cons name' rest => exact (ih (Or.inr joined) ok).2 (List.cons_ne_nil _ _)

/-- Under the reserved name only paths within the root are found. -/
theorem isRoot_of_resolve {path : String} {r : Resolved m}
    (reserved : (Path.segments path).head? = some Path.keySegment)
    (ok : resolve path d = .ok r d') : Path.isRoot path = true := by
  obtain ⟨f, below, -⟩ | ⟨unreserved, -⟩ := resolve_eq_ok.mp ok
  · exact Path.isRoot_iff.mpr (Or.inr ⟨f.name, below⟩)
  · exact absurd reserved unreserved

/-- A path leads to a scalar of a level that is there, of a joined one where it leaves the
root. -/
theorem resolve_has {path : String} {r : Resolved m} (ok : resolve path d = .ok r d') :
    ∃ l, d'.Has l ∧ (Path.isRoot path = false → l ∈ d'.levels) ∧
      (r.field, r.scalar) ∈ l.entity.scalars ∧ r.column = ⟨l.tableAlias, r.scalar.column⟩ := by
  obtain ⟨f, below, -, -, ok⟩ | ⟨-, l, d₁, follows, ok⟩ := resolve_eq_ok.mp ok
  · obtain ⟨rfl, field, s, found, store, rfl⟩ := scalarAt_eq_ok.mp ok
    have within : Path.isRoot path = true := Path.isRoot_iff.mpr (Or.inr ⟨f.name, below⟩)
    exact ⟨d.root, Or.inl rfl, fun cross => by simp [within] at cross,
      Entity.mem_scalars.mpr ⟨Entity.mem_of_field? found, store⟩, rfl⟩
  · obtain ⟨rfl, field, s, found, store, rfl⟩ := scalarAt_eq_ok.mp ok
    obtain ⟨has, joined⟩ := follow_has (Or.inl rfl) follows
    exact ⟨l, has, fun cross => joined (Path.dropLast_segments_ne_nil cross),
      Entity.mem_scalars.mpr ⟨Entity.mem_of_field? found, store⟩, rfl⟩

/-- A path within the root names a column of the root's table and joins nothing. -/
theorem resolve_root {path : String} (root : Path.isRoot path = true) {r : Resolved m}
    (grown : d.Grown entity) (ok : resolve path d = .ok r d') : d = d' ∧ ∃ field s,
      entity.scalarAt? path = some (field, s) ∧ r = ⟨⟨entity.table, s.column⟩, field, s⟩ := by
  have atRoot : d.root = Level.ofRoot entity := grown.root_eq
  have last : scalarAt d.root ((Path.segments path).getLastD "") d = .ok r d' := by
    obtain ⟨f, below, -, -, ok⟩ | ⟨unreserved, l, d₁, follows, ok⟩ := resolve_eq_ok.mp ok
    · rwa [below]
    · obtain ⟨name, single⟩ := Path.exists_name_of_isRoot root unreserved
      rw [single] at follows
      obtain ⟨rfl, rfl⟩ := pure_eq_ok.mp follows
      exact ok
  obtain ⟨rfl, field, s, found, store, rfl⟩ := scalarAt_eq_ok.mp last
  rw [atRoot] at found ⊢
  refine ⟨rfl, field, s, Option.bind_eq_some_iff.mpr ⟨field, found, ?_⟩, rfl⟩
  simp [Field.asScalar?, store]

/-! ## Lists of steps -/

/-- What every step keeps holds after all of them. -/
theorem mapM_keeps {f : α → Drafting m β} {P : Draft m → Prop} {xs : List α} {ys : List β}
    (each : ∀ x ∈ xs, ∀ d y d', P d → f x d = .ok y d' → P d') (start : P d)
    (ok : xs.mapM f d = .ok ys d') : P d' := by
  induction xs generalizing ys d with
  | nil =>
    rw [List.mapM_nil] at ok
    obtain ⟨-, rfl⟩ := pure_eq_ok.mp ok
    exact start
  | cons x xs ih =>
    rw [List.mapM_cons] at ok
    obtain ⟨y, d₁, first, ok⟩ := bind_eq_ok.mp ok
    obtain ⟨more, d₂, rest, ok⟩ := bind_eq_ok.mp ok
    obtain ⟨-, rfl⟩ := pure_eq_ok.mp ok
    exact ih (fun x mem => each x (List.mem_cons_of_mem _ mem))
      (each x List.mem_cons_self d y d₁ start first) rest

/-- Every element is run on a draft that is there on the way, and what it leaves behind grows to
the last one. -/
theorem mapM_runs {f : α → Drafting m β} {xs : List α} {ys : List β} (grown : d.Grown entity)
    (each : ∀ x ∈ xs, ∀ d y d', d.Grown entity → f x d = .ok y d' → d.Grows d')
    (ok : xs.mapM f d = .ok ys d') : d.Grows d' ∧ List.Forall₂ (fun x y => ∃ d₀ d₁,
      d₀.Grown entity ∧ f x d₀ = .ok y d₁ ∧ d₁.Grows d') xs ys := by
  induction xs generalizing ys d with
  | nil =>
    rw [List.mapM_nil] at ok
    obtain ⟨rfl, rfl⟩ := pure_eq_ok.mp ok
    exact ⟨.refl, .nil⟩
  | cons x xs ih =>
    rw [List.mapM_cons] at ok
    obtain ⟨y, d₁, first, ok⟩ := bind_eq_ok.mp ok
    obtain ⟨more, d₂, rest, ok⟩ := bind_eq_ok.mp ok
    obtain ⟨rfl, rfl⟩ := pure_eq_ok.mp ok
    have grows := each x List.mem_cons_self d y d₁ grown first
    obtain ⟨grows', runs⟩ :=
      ih (Draft.Grows.trans grown grows) (fun x mem => each x (List.mem_cons_of_mem _ mem)) rest
    exact ⟨grows.trans grows', .cons ⟨d, d₁, grown, first, grows'⟩ runs⟩

end Drafting

end EntityGraph
