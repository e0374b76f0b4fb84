import EntityGraph.Proofs.Draft.Columns

/-!
# Repeated steps

A step that has succeeded has nothing left to do: its columns are selected, its levels joined, and
what came later has taken nothing away. So repeating it at any later point yields the same and
leaves the draft alone, and selecting two selections one after the other is selecting both at
once.
-/
namespace EntityGraph

variable {m : Model} {entity : Entity m.size} {d d' : Draft m}

namespace Draft

/-- Whether all names of these columns are taken. -/
def Taken (d : Draft m) (columns : List (ColumnRef × String)) : Prop :=
  ∀ c ∈ columns, c.2 ∈ d.statement.columnNames

theorem projectAll_of_taken {columns : List (ColumnRef × String)} (taken : d.Taken columns) :
    d.projectAll columns = d := by
  induction columns with
  | nil => rfl
  | cons c columns ih =>
    have here : d.statement.projections.any (·.name == c.2) = true := by
      simpa [Statement.columnNames] using taken c List.mem_cons_self
    have first : d.project c.1 c.2 = d := by
      simp only [project, Statement.project, here, if_true]
    change (d.project c.1 c.2).projectAll columns = d
    rw [first]
    exact ih fun c mem => taken c (List.mem_cons_of_mem _ mem)

theorem mem_names_project (d : Draft m) (column : ColumnRef) (name : String) :
    name ∈ (d.project column name).statement.columnNames := by
  unfold project Statement.project
  split
  · rename_i here
    simpa [Statement.columnNames] using here
  · simp [Statement.columnNames]

theorem names_subset_project (d : Draft m) (column : ColumnRef) (name : String) :
    d.statement.columnNames ⊆ (d.project column name).statement.columnNames := by
  unfold project Statement.project
  split
  · exact List.Subset.refl _
  · simp [Statement.columnNames]

theorem names_subset_projectAll (d : Draft m) (columns : List (ColumnRef × String)) :
    d.statement.columnNames ⊆ (d.projectAll columns).statement.columnNames := by
  induction columns generalizing d with
  | nil => exact List.Subset.refl _
  | cons c columns ih => exact List.Subset.trans (d.names_subset_project c.1 c.2) (ih _)

theorem taken_projectAll (d : Draft m) (columns : List (ColumnRef × String)) :
    (d.projectAll columns).Taken columns := by
  induction columns generalizing d with
  | nil => exact List.forall_mem_nil _
  | cons c columns ih =>
    intro c' mem
    rcases List.mem_cons.mp mem with rfl | mem
    · exact names_subset_projectAll _ columns (d.mem_names_project c'.1 c'.2)
    · exact ih _ c' mem

theorem Grows.names_subset (grows : d.Grows d') :
    d.statement.columnNames ⊆ d'.statement.columnNames := by
  induction grows with
  | refl => exact List.Subset.refl _
  | project columns _ ih => exact List.Subset.trans ih (names_subset_projectAll _ columns)
  | cross _ _ _ _ ih => rwa [Statement.columnNames, Statement.columnNames, addLevel_projections]

theorem Grows.taken (grows : d.Grows d') {columns : List (ColumnRef × String)}
    (taken : d.Taken columns) : d'.Taken columns :=
  fun c mem => grows.names_subset (taken c mem)

/-- Columns that have been selected are not selected again. -/
theorem projectAll_of_grows {columns : List (ColumnRef × String)}
    (grows : (d.projectAll columns).Grows d') : d'.projectAll columns = d' :=
  projectAll_of_taken (grows.taken (d.taken_projectAll columns))

end Draft

namespace Drafting

variable {α β : Type}

/-- Whether a step that succeeds on a draft has nothing left to do on any later one, and yields
there what it has yielded. -/
def Lasts (x : Drafting m α) (d : Draft m) : Prop :=
  ∀ a d₁, x d = .ok a d₁ → ∀ d', d₁.Grows d' → x d' = .ok a d'

theorem Lasts.pure (a : α) : Lasts (Pure.pure a : Drafting m α) d := by
  intro b d₁ ok d' _
  obtain ⟨rfl, -⟩ := pure_eq_ok.mp ok
  rfl

/-- One step lasts after the other if the second only adds to what the first has left. -/
theorem Lasts.bind {x : Drafting m α} {f : α → Drafting m β} (first : Lasts x d)
    (second : ∀ a d₁, x d = .ok a d₁ → Proper (f a) d₁ ∧ Lasts (f a) d₁) :
    Lasts (x >>= f) d := by
  intro b d₂ ok d' grows
  obtain ⟨a, d₁, okX, okF⟩ := bind_eq_ok.mp ok
  obtain ⟨proper, lasts⟩ := second a d₁ okX
  have grows₁ := grows_of_ok proper.draws.grows okF
  exact bind_eq_ok.mpr ⟨a, d', first a d₁ okX d' (grows₁.trans grows), lasts b d₂ okF d' grows⟩

/-- A level that has been joined is found again. -/
theorem lasts_join (grown : d.Grown entity) {parent : Level m} {field : Field m.size}
    (has : d.Has parent) (found : parent.entity.field? field.name = some field) :
    Lasts (join parent field) d := by
  intro level d₁ ok d' grows
  have grows₁ := grows_of_ok (grows_join has found) ok
  have grown' : d'.Grown entity := (Draft.Grows.trans grown grows₁).trans grows
  have inside := grows.mem_levels (join_mem ok)
  obtain ⟨link, store, way⟩ := join_eq_ok.mp ok
  have path : level.path = Path.child parent.path field.name := by
    rcases way with ⟨there, -⟩ | ⟨-, rfl, -⟩
    · exact Keyed.key_of_get? there
    · rfl
  exact join_eq_ok.mpr ⟨link, store, Or.inl ⟨path ▸ grown'.level?_path inside, rfl⟩⟩

mutual

theorem lasts_selectField (item : Selection) (level : Level m) (d : Draft m)
    (grown : d.Grown entity) (has : d.Has level) : Lasts (selectField level item) d :=
  match item with
  | ⟨name, children⟩ => by
    intro u d₁ ok d' grows
    refine selectField_eq_ok.mpr ?_
    cases selectField_eq_ok.mp ok with
    | scalar named found store bare same =>
      exact .scalar named found store bare (Draft.projectAll_of_grows (same ▸ grows))
    | held named links filled elided same =>
      exact .held named links filled elided (Draft.projectAll_of_grows (same ▸ grows))
    | @joined field link next d₂ named links filled crossed joins below =>
      have grown₂ : d₂.Grown entity := grown.trans (grows_of_ok (grows_join has links.1) joins)
      have still : (d₂.projectAll next.keyColumns).Has next :=
        Draft.has_projectAll.mpr (join_has joins)
      have later := grows_of_ok (grows_selectFields children next _ still) below
      have onward : d₂.Grows d' := (Draft.Grows.project _ .refl).trans (later.trans grows)
      refine .joined named links filled crossed
        (lasts_join grown has links.1 next d₂ joins d' onward) ?_
      rw [Draft.projectAll_of_grows (later.trans grows)]
      exact lasts_selectFields children next _ (grown₂.project _) still u d₁ below d' grows

theorem lasts_selectFields (items : List Selection) (level : Level m) (d : Draft m)
    (grown : d.Grown entity) (has : d.Has level) : Lasts (selectFields level items) d :=
  match items with
  | [] => fun _ _ _ _ _ => selectFields_nil_eq_ok.mpr rfl
  | item :: rest => by
    intro u d₁ ok d' grows
    obtain ⟨d₂, first, ok⟩ := selectFields_cons_eq_ok.mp ok
    have grows₂ := grows_of_ok (grows_selectField item level d has) first
    have later := grows_of_ok (grows_selectFields rest level d₂ (grows₂.has has)) ok
    exact selectFields_cons_eq_ok.mpr ⟨d',
      lasts_selectField item level d grown has () d₂ first d' (later.trans grows),
      lasts_selectFields rest level d₂ (grown.trans grows₂) (grows₂.has has) u d₁ ok d' grows⟩

end

theorem lasts_select (selection : List Selection) (grown : d.Grown entity) :
    Lasts (select selection) d := by
  intro u d₁ ok d' grows
  have root : d'.root = d.root :=
    ((grows_of_ok (grows_select selection d) ok).trans grows).root_eq
  refine select_eq_ok.mpr ?_
  rw [root]
  obtain ⟨empty, same⟩ | ⟨filled, ok⟩ := select_eq_ok.mp ok
  · have scalars := same ▸ grows
    have keys := (Draft.Grows.project d.root.scalarColumns .refl).trans scalars
    refine Or.inl ⟨empty, ?_⟩
    rw [Draft.projectAll_of_grows keys, Draft.projectAll_of_grows scalars]
  · have still : (d.projectAll d.root.keyColumns).Has d.root :=
      Draft.has_projectAll.mpr (Or.inl rfl)
    have later := grows_of_ok (grows_selectFields selection _ _ still) ok
    refine Or.inr ⟨filled, ?_⟩
    rw [Draft.projectAll_of_grows (later.trans grows)]
    exact lasts_selectFields selection _ _ (grown.project _) still u d₁ ok d' grows

theorem lasts_follow (names : List String) (level : Level m) (grown : d.Grown entity)
    (has : d.Has level) : Lasts (follow level names) d := by
  induction names generalizing level d with
  | nil => exact .pure level
  | cons name rest ih =>
    intro l d₁ ok d' grows
    obtain ⟨field, next, d₂, named, found, joins, ok⟩ := follow_cons_eq_ok.mp ok
    have grown₂ : d₂.Grown entity := grown.trans (grows_of_ok (grows_join has found) joins)
    have later := grows_of_ok (proper_follow rest next d₂ (join_has joins)).draws.grows ok
    exact follow_cons_eq_ok.mpr ⟨field, next, d', named, found,
      lasts_join grown has found next d₂ joins d' (later.trans grows),
      ih next grown₂ (join_has joins) l d₁ ok d' grows⟩

theorem lasts_scalarAt (level : Level m) (name : String) : Lasts (scalarAt level name) d := by
  intro r d₁ ok d' _
  exact scalarAt_eq_ok.mpr ⟨rfl, (scalarAt_eq_ok.mp ok).2⟩

theorem lasts_resolve (path : String) (grown : d.Grown entity) : Lasts (resolve path) d := by
  intro r d₁ ok d' grows
  have root : d'.root = d.root := ((grows_of_ok (grows_resolve path d) ok).trans grows).root_eq
  refine resolve_eq_ok.mpr ?_
  rw [root]
  obtain ⟨f, below, found, inKey, ok⟩ | ⟨unreserved, l, d₂, follows, ok⟩ := resolve_eq_ok.mp ok
  · exact Or.inl ⟨f, below, found, inKey, lasts_scalarAt _ _ r d₁ ok d' grows⟩
  · obtain ⟨rfl, -⟩ := scalarAt_eq_ok.mp ok
    exact Or.inr ⟨unreserved, l, d', lasts_follow _ _ grown (Or.inl rfl) l d₂ follows d' grows,
      lasts_scalarAt _ _ r d₂ ok d' grows⟩

/-! ## Selections one after the other -/

theorem selectFields_append (level : Level m) (items more : List Selection) :
    selectFields level (items ++ more) =
      selectFields level items >>= fun _ => selectFields level more := by
  induction items with
  | nil => rw [List.nil_append, selectFields, pure_bind]
  | cons item items ih => rw [List.cons_append, selectFields, selectFields, ih, bind_assoc]

theorem select_of_ne_nil {selection : List Selection} (some : selection ≠ []) (d : Draft m) :
    select selection d = selectFields d.root selection (d.projectAll d.root.keyColumns) := by
  have filled : selection.isEmpty = false := by simpa using some
  change (project d.root.keyColumns >>= fun _ => if selection.isEmpty then
    project d.root.scalarColumns else selectFields d.root selection) d = _
  rw [bind_apply]
  simp only [filled]
  rfl

/-- Selecting two selections one after the other is selecting both at once, whatever the draft
and whether or not it succeeds. -/
theorem select_append {selection more : List Selection} (some : selection ≠ [])
    (some' : more ≠ []) : (select (selection ++ more) : Drafting m Unit) =
      select selection >>= fun _ => select more := by
  funext d
  rw [bind_apply, select_of_ne_nil some, select_of_ne_nil (List.append_ne_nil_of_left_ne_nil some _),
    selectFields_append, bind_apply]
  cases run : selectFields d.root selection (d.projectAll d.root.keyColumns) with
  | error e d' => rfl
  | ok u d' =>
    -- the key of the root is selected already, so the second selection begins where the first ends
    have still : (d.projectAll d.root.keyColumns).Has d.root :=
      Draft.has_projectAll.mpr (Or.inl rfl)
    have grows := grows_of_ok (grows_selectFields selection _ _ still) run
    have root : d'.root = d.root := grows.root_eq.trans (Draft.projectAll_root _ _)
    have keys := Draft.projectAll_of_grows grows
    simp only
    rw [select_of_ne_nil some', root, keys]

end Drafting

end EntityGraph
