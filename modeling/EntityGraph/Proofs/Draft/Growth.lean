import EntityGraph.Proofs.Model.Basic
import EntityGraph.Plan

/-!
# How drafts grow

Drafting does two things to a draft, in any order: it selects columns, and it joins the level
behind a link of a level that is there, if that level is not there yet. Whatever holds at the
start and survives both holds of every draft, also of one that a failing step leaves behind.
Selecting fields and resolving paths select columns of levels that are there, and fail only where
the request itself is at fault.
-/
namespace EntityGraph

variable {m : Model}

namespace Level

/-- Whether the entity of a level has this field, and the field this link. -/
def Links (l : Level m) (field : Field m.size) (link : Link m.size) : Prop :=
  l.entity.field? field.name = some field ∧ field.store = .link link

/-- A name leads over one link of a level alone. -/
theorem Links.unique {l : Level m} {field field' : Field m.size} {link link' : Link m.size}
    (links : l.Links field link) (links' : l.Links field' link')
    (names : field.name = field'.name) : field = field' ∧ link = link' := by
  have found := links'.1
  rw [← names, links.1] at found
  obtain rfl := Option.some.inj found
  have store := links'.2
  rw [links.2] at store
  exact ⟨rfl, FieldStore.link.inj store⟩

/-- The level behind a link. -/
def below (l : Level m) (field : Field m.size) (link : Link m.size) : Level m :=
  ⟨Path.child l.path field.name, Path.child l.path field.name, m.get link.target,
    isOuter l field link⟩

theorem keyColumns_own (l : Level m) : ∀ c ∈ l.keyColumns, c.1.tableAlias = l.tableAlias := by
  intro c mem
  obtain ⟨f, -, rfl⟩ := List.mem_map.mp mem
  rfl

theorem scalarColumns_own (l : Level m) :
    ∀ c ∈ l.scalarColumns, c.1.tableAlias = l.tableAlias := by
  intro c mem
  obtain ⟨f, -, rfl⟩ := List.mem_map.mp mem
  rfl

end Level

namespace Draft

/-- The root and the joined levels. -/
def Has (d : Draft m) (l : Level m) : Prop :=
  l = d.root ∨ l ∈ d.levels

/-- Selecting columns changes nothing but what is selected. -/
theorem exists_projectAll_eq (d : Draft m) (columns : List (ColumnRef × String)) :
    ∃ projections, d.projectAll columns =
      { d with statement := { d.statement with projections := projections } } := by
  induction columns generalizing d with
  | nil => exact ⟨d.statement.projections, rfl⟩
  | cons c columns ih =>
    obtain ⟨projections, rest⟩ := ih (d.project c.1 c.2)
    have first : ∃ projections, d.project c.1 c.2 =
        { d with statement := { d.statement with projections := projections } } := by
      unfold project Statement.project
      split
      · exact ⟨d.statement.projections, rfl⟩
      · exact ⟨_, rfl⟩
    obtain ⟨earlier, first⟩ := first
    refine ⟨projections, ?_⟩
    change (d.project c.1 c.2).projectAll columns = _
    rw [rest, first]

@[simp] theorem projectAll_root (d : Draft m) (columns : List (ColumnRef × String)) :
    (d.projectAll columns).root = d.root := by
  obtain ⟨projections, same⟩ := d.exists_projectAll_eq columns
  rw [same]

@[simp] theorem projectAll_levels (d : Draft m) (columns : List (ColumnRef × String)) :
    (d.projectAll columns).levels = d.levels := by
  obtain ⟨projections, same⟩ := d.exists_projectAll_eq columns
  rw [same]

@[simp] theorem projectAll_joins (d : Draft m) (columns : List (ColumnRef × String)) :
    (d.projectAll columns).statement.joins = d.statement.joins := by
  obtain ⟨projections, same⟩ := d.exists_projectAll_eq columns
  rw [same]

@[simp] theorem projectAll_tableAlias (d : Draft m) (columns : List (ColumnRef × String)) :
    (d.projectAll columns).statement.tableAlias = d.statement.tableAlias := by
  obtain ⟨projections, same⟩ := d.exists_projectAll_eq columns
  rw [same]

section

variable (d : Draft m) (parent : Level m) (field : Field m.size) (link : Link m.size)

theorem addLevel_snd : (d.addLevel parent field link).2 = parent.below field link := by
  unfold addLevel
  cases link.pivot <;> rfl

@[simp] theorem addLevel_levels :
    (d.addLevel parent field link).1.levels = d.levels ++ [parent.below field link] := by
  unfold addLevel
  cases link.pivot <;> rfl

@[simp] theorem addLevel_root : (d.addLevel parent field link).1.root = d.root := by
  unfold addLevel
  cases link.pivot <;> rfl

@[simp] theorem addLevel_projections :
    (d.addLevel parent field link).1.statement.projections = d.statement.projections := by
  unfold addLevel
  cases link.pivot <;> rfl

@[simp] theorem addLevel_tableAlias :
    (d.addLevel parent field link).1.statement.tableAlias = d.statement.tableAlias := by
  unfold addLevel
  cases link.pivot <;> rfl

end

/-- What drafting can make of a draft. -/
inductive Grows (d : Draft m) : Draft m → Prop where
  | refl : Grows d d
  | project {d' : Draft m} (columns : List (ColumnRef × String)) :
      Grows d d' → Grows d (d'.projectAll columns)
  | cross {d' : Draft m} {parent : Level m} {field : Field m.size} {link : Link m.size} :
      Grows d d' → d'.Has parent → parent.Links field link →
      d'.level? (Path.child parent.path field.name) = none →
      Grows d (d'.addLevel parent field link).1

namespace Grows

variable {d d' d'' : Draft m}

theorem trans (first : d.Grows d') (second : d'.Grows d'') : d.Grows d'' := by
  induction second with
  | refl => exact first
  | project columns _ ih => exact ih.project columns
  | cross _ has links fresh ih => exact ih.cross has links fresh

theorem root_eq (grows : d.Grows d') : d'.root = d.root := by
  induction grows with
  | refl => rfl
  | project columns _ ih => rw [projectAll_root, ih]
  | cross _ _ _ _ ih => rw [addLevel_root, ih]

theorem tableAlias_eq (grows : d.Grows d') :
    d'.statement.tableAlias = d.statement.tableAlias := by
  induction grows with
  | refl => rfl
  | project columns _ ih => rw [projectAll_tableAlias, ih]
  | cross _ _ _ _ ih => rw [addLevel_tableAlias, ih]

theorem mem_levels (grows : d.Grows d') {l : Level m} (mem : l ∈ d.levels) : l ∈ d'.levels := by
  induction grows with
  | refl => exact mem
  | project columns _ ih => rwa [projectAll_levels]
  | cross _ _ _ _ ih =>
    rw [addLevel_levels]
    exact List.mem_append_left _ ih

theorem has (grows : d.Grows d') {l : Level m} (has : d.Has l) : d'.Has l := by
  rcases has with rfl | mem
  · exact Or.inl grows.root_eq.symm
  · exact Or.inr (grows.mem_levels mem)

end Grows

/-- What selecting fields and resolving paths can make of a draft: all columns that are selected
are those of levels that are there. -/
inductive Draws (d : Draft m) : Draft m → Prop where
  | refl : Draws d d
  | project {d' : Draft m} {l : Level m} {columns : List (ColumnRef × String)} :
      Draws d d' → d'.Has l → (∀ c ∈ columns, c.1.tableAlias = l.tableAlias) →
      Draws d (d'.projectAll columns)
  | cross {d' : Draft m} {parent : Level m} {field : Field m.size} {link : Link m.size} :
      Draws d d' → d'.Has parent → parent.Links field link →
      d'.level? (Path.child parent.path field.name) = none →
      Draws d (d'.addLevel parent field link).1

namespace Draws

variable {d d' d'' : Draft m}

theorem trans (first : d.Draws d') (second : d'.Draws d'') : d.Draws d'' := by
  induction second with
  | refl => exact first
  | project _ has own ih => exact ih.project has own
  | cross _ has links fresh ih => exact ih.cross has links fresh

theorem grows (draws : d.Draws d') : d.Grows d' := by
  induction draws with
  | refl => exact .refl
  | project _ _ _ ih => exact ih.project _
  | cross _ has links fresh ih => exact ih.cross has links fresh

end Draws

end Draft

/-! ## Steps -/

namespace Drafting

variable {α β : Type} {d d' d'' : Draft m}

theorem bind_apply (x : Drafting m α) (f : α → Drafting m β) (d : Draft m) :
    (x >>= f) d = match x d with
      | .ok a d' => f a d'
      | .error e d' => .error e d' := by
  change EStateM.bind x f d = _
  unfold EStateM.bind
  cases x d <;> rfl

theorem bind_eq_ok {x : Drafting m α} {f : α → Drafting m β} {b : β} :
    (x >>= f) d = .ok b d'' ↔ ∃ a d', x d = .ok a d' ∧ f a d' = .ok b d'' := by
  rw [bind_apply]
  cases x d <;> simp

theorem pure_eq_ok {a b : α} : (pure a : Drafting m α) d = .ok b d' ↔ a = b ∧ d = d' := by
  change EStateM.pure a d = _ ↔ _
  simp [EStateM.pure]

theorem lift_eq_ok {x : Except Error α} {a : α} :
    (lift x : Drafting m α) d = .ok a d' ↔ x = .ok a ∧ d = d' := by
  cases x with
  | error e =>
    change EStateM.Result.error e d = _ ↔ _
    simp
  | ok b =>
    change EStateM.pure b d = _ ↔ _
    simp [EStateM.pure]

theorem throw_ne_ok {e : Error} {a : α} : (throw e : Drafting m α) d ≠ .ok a d' := by
  change EStateM.Result.error e d ≠ _
  simp

/-- The draft that a step leaves behind, whether or not it succeeds. -/
def after (x : Drafting m α) (d : Draft m) : Draft m :=
  match x d with
  | .ok _ d' => d'
  | .error _ d' => d'

theorem after_of_ok {x : Drafting m α} {a : α} (ok : x d = .ok a d') : after x d = d' := by
  simp [after, ok]

/-- Whether a step draws no more than a draft allows, and fails only where the request is at
fault. -/
structure Proper (x : Drafting m α) (d : Draft m) : Prop where
  draws : d.Draws (after x d)
  invalid : ∀ e d', x d = .error e d' → e.isValidation = true

theorem Proper.bind {x : Drafting m α} {f : α → Drafting m β} (first : Proper x d)
    (second : ∀ a d', x d = .ok a d' → Proper (f a) d') : Proper (x >>= f) d := by
  have run := bind_apply x f d
  cases step : x d with
  | ok a d' =>
    have drawn := first.draws
    rw [after_of_ok step] at drawn
    simp only [step] at run
    have same : after (x >>= f) d = after (f a) d' := by
      rw [after, run]
      rfl
    refine ⟨same ▸ drawn.trans (second a d' step).draws, fun e d'' failed => ?_⟩
    rw [run] at failed
    exact (second a d' step).invalid e d'' failed
  | error e d' =>
    simp only [step] at run
    have same : after (x >>= f) d = after x d := by
      simp [after, run, step]
    refine ⟨same ▸ first.draws, fun e' d'' failed => ?_⟩
    rw [run] at failed
    cases failed
    exact first.invalid e d' step

theorem Proper.pure (a : α) : Proper (Pure.pure a : Drafting m α) d :=
  ⟨.refl, fun _ _ failed => by cases failed⟩

theorem Proper.throw {e : Error} (invalid : e.isValidation = true) :
    Proper (MonadExcept.throw e : Drafting m α) d :=
  ⟨.refl, fun _ _ failed => by cases failed; exact invalid⟩

theorem Proper.lift {x : Except Error α} (invalid : ∀ e, x = .error e → e.isValidation = true) :
    Proper (Drafting.lift x) d := by
  cases x with
  | ok a => exact .pure a
  | error e => exact .throw (invalid e rfl)

theorem Proper.get : Proper (MonadState.get : Drafting m (Draft m)) d :=
  ⟨.refl, fun _ _ failed => by cases failed⟩

/-- Columns of a level are selected. -/
theorem Proper.project {l : Level m} {columns : List (ColumnRef × String)} (has : d.Has l)
    (own : ∀ c ∈ columns, c.1.tableAlias = l.tableAlias) : Proper (Drafting.project columns) d :=
  ⟨.project .refl has own, fun _ _ failed => by cases failed⟩

theorem project_eq_ok {columns : List (ColumnRef × String)} {u : Unit} :
    (project columns : Drafting m Unit) d = .ok u d' ↔ d.projectAll columns = d' := by
  change EStateM.Result.ok () (d.projectAll columns) = _ ↔ _
  simp

theorem get_eq_ok {d₀ : Draft m} :
    (get : Drafting m (Draft m)) d = .ok d₀ d' ↔ d = d₀ ∧ d = d' := by
  change EStateM.Result.ok d d = _ ↔ _
  simp

theorem set_eq_ok {d₀ : Draft m} {u : PUnit} :
    (set d₀ : Drafting m PUnit) d = .ok u d' ↔ d₀ = d' := by
  change EStateM.Result.ok PUnit.unit d₀ = _ ↔ _
  simp

/-- Joining finds the level behind the link or adds it. -/
theorem join_eq_ok {parent : Level m} {field : Field m.size} {level : Level m} :
    join parent field d = .ok level d' ↔ ∃ link, field.store = .link link ∧
      (d.level? (Path.child parent.path field.name) = some level ∧ d = d' ∨
        d.level? (Path.child parent.path field.name) = none ∧
          parent.below field link = level ∧ (d.addLevel parent field link).1 = d') := by
  unfold join
  rw [bind_eq_ok]
  have store : ∀ link d₀, lift field.link d = .ok link d₀ ↔ field.store = .link link ∧ d = d₀ := by
    intro link d₀
    rw [lift_eq_ok]
    unfold Field.link
    cases field.store <;> simp
  constructor
  · rintro ⟨link, d₀, linkOk, rest⟩
    obtain ⟨stored, rfl⟩ := (store link d₀).mp linkOk
    refine ⟨link, stored, ?_⟩
    obtain ⟨d₁, d₂, getOk, rest⟩ := bind_eq_ok.mp rest
    obtain ⟨rfl, rfl⟩ := get_eq_ok.mp getOk
    cases found : d.level? (Path.child parent.path field.name) with
    | some l =>
      simp only [found] at rest
      obtain ⟨rfl, rfl⟩ := pure_eq_ok.mp rest
      exact Or.inl ⟨rfl, rfl⟩
    | none =>
      simp only [found] at rest
      obtain ⟨d₁, d₂, getOk, rest⟩ := bind_eq_ok.mp rest
      obtain ⟨rfl, rfl⟩ := get_eq_ok.mp getOk
      obtain ⟨u, d₁, setOk, rest⟩ := bind_eq_ok.mp rest
      obtain rfl := set_eq_ok.mp setOk
      obtain ⟨rfl, rfl⟩ := pure_eq_ok.mp rest
      exact Or.inr ⟨rfl, (Draft.addLevel_snd _ _ _ _).symm, rfl⟩
  · rintro ⟨link, stored, ⟨found, rfl⟩ | ⟨fresh, rfl, rfl⟩⟩
    · refine ⟨link, d, (store link d).mpr ⟨stored, rfl⟩, bind_eq_ok.mpr ⟨d, d, rfl, ?_⟩⟩
      rw [found]
      rfl
    · refine ⟨link, d, (store link d).mpr ⟨stored, rfl⟩, bind_eq_ok.mpr ⟨d, d, rfl, ?_⟩⟩
      rw [fresh]
      refine bind_eq_ok.mpr ⟨d, d, rfl, bind_eq_ok.mpr ⟨⟨⟩, _, set_eq_ok.mpr rfl, ?_⟩⟩
      exact pure_eq_ok.mpr ⟨Draft.addLevel_snd _ _ _ _, rfl⟩

/-- The level behind the link is a joined one afterwards. -/
theorem join_mem {parent level : Level m} {field : Field m.size}
    (ok : join parent field d = .ok level d') : level ∈ d'.levels := by
  obtain ⟨link, -, ⟨found, rfl⟩ | ⟨-, rfl, rfl⟩⟩ := join_eq_ok.mp ok
  · exact Keyed.mem_of_get? found
  · rw [Draft.addLevel_levels]
    exact List.mem_append_right _ List.mem_cons_self

theorem join_has {parent level : Level m} {field : Field m.size}
    (ok : join parent field d = .ok level d') : d'.Has level :=
  Or.inr (join_mem ok)

theorem proper_join {parent : Level m} {field : Field m.size} (has : d.Has parent)
    (found : parent.entity.field? field.name = some field) : Proper (join parent field) d := by
  cases outcome : join parent field d with
  | ok level d' =>
    refine ⟨?_, fun e d'' failed => by rw [outcome] at failed; cases failed⟩
    rw [after_of_ok outcome]
    obtain ⟨link, stored, ⟨-, rfl⟩ | ⟨fresh, -, rfl⟩⟩ := join_eq_ok.mp outcome
    · exact .refl
    · exact .cross .refl has ⟨found, stored⟩ fresh
  | error e d' =>
    -- only a field that is no link is refused, before anything is done
    cases store : field.store with
    | scalar s =>
      have failed : field.link = .error (.notLinked field.name) := by
        simp [Field.link, store]
      have run : join parent field d = .error (.notLinked field.name) d := by
        unfold join
        rw [failed]
        rfl
      refine ⟨?_, fun e' d'' other => ?_⟩
      · rw [after, run]
        exact .refl
      · rw [run] at other
        cases other
        rfl
    | link link =>
      have succeeds : ∃ level d', join parent field d = .ok level d' := by
        cases found : d.level? (Path.child parent.path field.name) with
        | some level => exact ⟨level, d, join_eq_ok.mpr ⟨link, store, Or.inl ⟨found, rfl⟩⟩⟩
        | none => exact ⟨_, _, join_eq_ok.mpr ⟨link, store, Or.inr ⟨found, rfl, rfl⟩⟩⟩
      obtain ⟨level, d'', ok⟩ := succeeds
      rw [outcome] at ok
      cases ok

/-- The field that a step looks up. -/
theorem field_of_lift {e : Entity m.size} {name : String} {field : Field m.size}
    (ok : (lift (e.field name) : Drafting m (Field m.size)) d = .ok field d') :
    e.field? name = some field ∧ e.field? field.name = some field ∧ d = d' := by
  obtain ⟨found, rfl⟩ := lift_eq_ok.mp ok
  have here := Entity.field_eq_ok.mp found
  exact ⟨here, (Entity.name_of_field? here).symm ▸ here, rfl⟩

theorem invalid_of_keyField {root : Level m} {path : String} {segments : List String} {e : Error}
    (failed : keyField root path segments = .error e) : e.isValidation = true := by
  unfold keyField at failed
  split at failed
  · rename_i name
    cases found : root.entity.field name with
    | error e' =>
      rw [found] at failed
      cases failed
      exact Entity.invalid_of_field found
    | ok field =>
      rw [found] at failed
      simp only [bind, Except.bind] at failed
      split at failed
      · cases failed
      · cases failed
        rfl
  · cases failed
    rfl

theorem proper_field (e : Entity m.size) (name : String) :
    Proper (lift (e.field name) : Drafting m (Field m.size)) d :=
  .lift fun _ => Entity.invalid_of_field

mutual

theorem proper_selectField (item : Selection) (level : Level m) (d : Draft m)
    (has : d.Has level) : Proper (selectField level item) d :=
  match item with
  | ⟨name, children⟩ => by
    unfold selectField
    refine (proper_field level.entity name).bind fun field d' ok => ?_
    obtain ⟨-, found, rfl⟩ := field_of_lift ok
    have throws : ∀ {e : Error} {rest : Drafting m Unit}, e.isValidation = true →
        Proper (throw e >>= fun _ : Unit => rest) d := fun invalid =>
      Proper.bind (.throw invalid) fun _ _ threw => absurd threw throw_ne_ok
    cases store : field.store with
    | scalar s =>
      simp only
      split
      · exact throws rfl
      · exact .project has fun c mem => by rw [List.mem_singleton.mp mem]
    | link link =>
      simp only
      split
      · exact throws rfl
      · cases elided : elidedColumns? m link children with
        | some columns =>
          refine .project has fun c mem => ?_
          obtain ⟨held, -, rfl⟩ := List.mem_map.mp mem
          rfl
        | none =>
          refine (proper_join has found).bind fun joined d₁ joinOk => ?_
          have there := join_has joinOk
          refine (Proper.project there joined.keyColumns_own).bind fun u d₂ projectOk => ?_
          obtain rfl := project_eq_ok.mp projectOk
          have still : (d₁.projectAll joined.keyColumns).Has joined :=
            Draft.Grows.has (.project _ .refl) there
          exact proper_selectFields children joined _ still

theorem proper_selectFields (items : List Selection) (level : Level m) (d : Draft m)
    (has : d.Has level) : Proper (selectFields level items) d :=
  match items with
  | [] => by
    unfold selectFields
    exact .pure ()
  | item :: rest => by
    unfold selectFields
    have first := proper_selectField item level d has
    refine first.bind fun u d' ok => ?_
    have drawn := first.draws
    rw [after_of_ok ok] at drawn
    exact proper_selectFields rest level d' (drawn.grows.has has)

end

theorem proper_select (selection : List Selection) (d : Draft m) :
    Proper (select selection) d := by
  unfold select
  refine Proper.get.bind fun root d' ok => ?_
  obtain ⟨rfl, rfl⟩ := get_eq_ok.mp ok
  refine (Proper.project (Or.inl rfl) (Level.keyColumns_own _)).bind fun u d' ok => ?_
  obtain rfl := project_eq_ok.mp ok
  have root : (d.projectAll d.root.keyColumns).Has d.root :=
    Or.inl (Draft.projectAll_root d _).symm
  split
  · exact .project root (Level.scalarColumns_own _)
  · exact proper_selectFields selection _ _ root

theorem proper_follow (names : List String) (level : Level m) (d : Draft m)
    (has : d.Has level) : Proper (follow level names) d := by
  induction names generalizing level d with
  | nil => exact .pure level
  | cons name rest ih =>
    unfold follow
    refine (proper_field level.entity name).bind fun field d' ok => ?_
    obtain ⟨-, found, rfl⟩ := field_of_lift ok
    refine (proper_join has found).bind fun joined d' joinOk => ?_
    exact ih joined d' (join_has joinOk)

theorem proper_scalarAt (level : Level m) (name : String) (d : Draft m) :
    Proper (scalarAt level name) d := by
  unfold scalarAt
  refine (proper_field level.entity name).bind fun field d' _ => ?_
  refine Proper.bind (.lift fun _ => Field.invalid_of_scalar) fun scalar d' _ => ?_
  exact .pure _

theorem proper_resolve (path : String) (d : Draft m) : Proper (resolve path) d := by
  unfold resolve
  refine Proper.get.bind fun root d' ok => ?_
  obtain ⟨rfl, rfl⟩ := get_eq_ok.mp ok
  simp only
  split
  · refine Proper.bind (.lift fun _ => invalid_of_keyField) fun name d' _ => ?_
    exact proper_scalarAt _ _ _
  · refine (proper_follow _ _ _ (Or.inl rfl)).bind fun level d' _ => ?_
    exact proper_scalarAt _ _ _

theorem grows_join {parent : Level m} {field : Field m.size} (has : d.Has parent)
    (found : parent.entity.field? field.name = some field) :
    d.Grows (after (join parent field) d) :=
  (proper_join has found).draws.grows

theorem grows_selectField (item : Selection) (level : Level m) (d : Draft m)
    (has : d.Has level) : d.Grows (after (selectField level item) d) :=
  (proper_selectField item level d has).draws.grows

theorem grows_selectFields (items : List Selection) (level : Level m) (d : Draft m)
    (has : d.Has level) : d.Grows (after (selectFields level items) d) :=
  (proper_selectFields items level d has).draws.grows

theorem grows_select (selection : List Selection) (d : Draft m) :
    d.Grows (after (select selection) d) :=
  (proper_select selection d).draws.grows

theorem grows_resolve (path : String) (d : Draft m) : d.Grows (after (resolve path) d) :=
  (proper_resolve path d).draws.grows

end Drafting

/-- Whether a draft can come about on an entity. -/
def Draft.Grown (entity : Entity m.size) (d : Draft m) : Prop :=
  (Draft.start m entity).Grows d

/-- Whether selecting, resolving paths and selecting single columns lead to a draft; any of these
may fail on the way. -/
inductive Draft.Reached (entity : Entity m.size) : Draft m → Prop where
  | start : Reached entity (Draft.start m entity)
  | select {d : Draft m} (selection : List Selection) : Reached entity d →
      Reached entity (Drafting.after (Drafting.select selection) d)
  | resolve {d : Draft m} (path : String) : Reached entity d →
      Reached entity (Drafting.after (Drafting.resolve path) d)
  | project {d : Draft m} (columns : List (ColumnRef × String)) : Reached entity d →
      Reached entity (d.projectAll columns)

theorem Draft.Reached.grown {entity : Entity m.size} {d : Draft m} (reached : d.Reached entity) :
    d.Grown entity := by
  induction reached with
  | start => exact .refl
  | select selection _ ih => exact Grows.trans ih (Drafting.grows_select selection _)
  | resolve path _ ih => exact Grows.trans ih (Drafting.grows_resolve path _)
  | project columns _ ih => exact Grows.project columns ih

end EntityGraph
