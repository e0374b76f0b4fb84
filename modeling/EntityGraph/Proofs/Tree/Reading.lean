import EntityGraph.Proofs.Model.Build
import EntityGraph.Proofs.Plan.Drafted
import EntityGraph.Proofs.Statement.Answer
import EntityGraph.Proofs.Tree.Presented

/-!
# The columns of a result

The columns of a drafted statement are named by the selection, and every one of them holds what
its names lead to.
-/
namespace EntityGraph

variable {m : Model}

namespace Layout

/-- The columns of a result by the names of their paths. -/
def named (columns : List String) : List Named :=
  columns.zipIdx.map fun c => (Path.segments c.1, c.2)

theorem ofColumns_named (columns : List String) : ofColumns columns = ofNamed (named columns) :=
  ofColumns_eq columns

end Layout

/-- A column of a row is the one that is selected there. -/
theorem Statement.at_row {s : Statement} {i : Nat} {p : Projection}
    (here : s.projections[i]? = some p) (e : Scope) : (s.row e).at i = e.reading p.column := by
  rw [Row.at, Statement.row, List.getElem?_map, here]
  rfl

/-- Whether the columns of rows hold, for the combinations of a group, what their names lead to
from a level; those of the cursor do not belong to any level. The rows may be those of a statement
that has been drafted further. -/
def Draft.Reads (d : Draft m) (row : Scope → Row) (l : Level m) (group : List Scope)
    (columns : List Layout.Named) : Prop :=
  ∀ c ∈ columns, (∀ n, c.1 ≠ [Path.cursorSegment, n]) →
    ∃ ref, d.Leads l c.1 ref ∧ ∀ e ∈ group, (row e).at c.2 = e.reading ref

/-- Whether this is so for the columns past the names of a level, those of its key and those
below its links. -/
def Draft.ReadsPast (d : Draft m) (row : Scope → Row) (l : Level m) (group : List Scope)
    (columns : List Layout.Named) : Prop :=
  ∀ c ∈ columns, 2 ≤ c.1.length → (∀ n, c.1 ≠ [Path.cursorSegment, n]) →
    ∃ ref, d.Leads l c.1 ref ∧ ∀ e ∈ group, (row e).at c.2 = e.reading ref

section

variable {d : Draft m} {row : Scope → Row} {l : Level m} {group group' : List Scope}
  {columns : List Layout.Named}

theorem Draft.Reads.mono (reads : d.Reads row l group columns) (sub : ∀ e ∈ group', e ∈ group) :
    d.Reads row l group' columns := by
  intro c mem notCursor
  obtain ⟨ref, leads, value⟩ := reads c mem notCursor
  exact ⟨ref, leads, fun e inside => value e (sub e inside)⟩

theorem Draft.Reads.past (reads : d.Reads row l group columns) : d.ReadsPast row l group columns :=
  fun c mem _ => reads c mem

theorem Draft.ReadsPast.mono (reads : d.ReadsPast row l group columns)
    (sub : ∀ e ∈ group', e ∈ group) : d.ReadsPast row l group' columns := by
  intro c mem past notCursor
  obtain ⟨ref, leads, value⟩ := reads c mem past notCursor
  exact ⟨ref, leads, fun e inside => value e (sub e inside)⟩

end

/-- Names that lead somewhere can stand in a path. -/
theorem Draft.Leads.plain {d : Draft m} (plain : m.PlainNames) {l : Level m}
    {names : List String} {ref : ColumnRef} (leads : d.Leads l names ref)
    (known : l.entity ∈ m.entities) : names ≠ [] ∧ ∀ n ∈ names, Path.Plain n := by
  have ofField : ∀ {e : Entity m.size} {f : Field m.size}, e ∈ m.entities → f ∈ e.fields →
      Path.Plain f.name := fun mem inside => (plain _ mem _ inside).plain
  induction leads with
  | scalar found store =>
    refine ⟨List.cons_ne_nil _ _, fun n mem => ?_⟩
    rw [List.mem_singleton.mp mem]
    exact ofField known (Entity.mem_of_field? found)
  | key mem =>
    refine ⟨List.cons_ne_nil _ _, fun n inside => ?_⟩
    have field := (Entity.mem_scalars.mp (Entity.mem_primaryKey.mp mem).1).1
    rcases List.mem_cons.mp inside with rfl | inside
    · exact Path.plain_keySegment
    · rw [List.mem_singleton.mp inside]
      exact ofField known field
  | elided links owner pivot one found store pair =>
    refine ⟨List.cons_ne_nil _ _, fun n inside => ?_⟩
    rcases List.mem_cons.mp inside with rfl | inside
    · exact ofField known (Entity.mem_of_field? links.1)
    · rw [List.mem_singleton.mp inside]
      exact ofField (m.get_mem _) (Entity.mem_of_field? found)
  | joined links inside _ ih =>
    refine ⟨List.cons_ne_nil _ _, fun n mem => ?_⟩
    rcases List.mem_cons.mp mem with rfl | mem
    · exact ofField known (Entity.mem_of_field? links.1)
    · exact (ih (m.get_mem _)).2 n mem

namespace Draft.Drafted

variable {entity : Entity m.size} {selection : List Selection} {cursor : List ColumnRef}
  {d : Draft m} (plain : m.PlainNames) (known : entity ∈ m.entities)
include plain known

/-- All columns by their names, those of the cursor last. -/
theorem exists_columns (drafted : d.Drafted entity selection cursor) :
    ∃ (lead : Draft m) (columns : List (ColumnRef × List String)),
      lead.Grows d ∧
      (∀ x, x ∈ lead.levels ↔ x ∈ Selection.allLevels m (Level.ofRoot entity) selection) ∧
      columns.map (·.2) =
        entity.keyNames ++ Selection.allNames m entity (entity.wanted selection) ++
          cursor.zipIdx.map (fun c => [Path.cursorSegment, Decimal.ofNat c.2]) ∧
      (∀ c ∈ columns, (∃ n, c.2 = [Path.cursorSegment, n]) ∨
        lead.Leads (Level.ofRoot entity) c.2 c.1) ∧
      (∀ c ∈ columns, c.2 ≠ [] ∧ ∀ n ∈ c.2, Path.Plain n) ∧
      d.statement.projections =
        addProjections [] (columns.map fun c => (c.1, Path.extend "" c.2)) := by
  obtain ⟨lead, columns, grows, levels, names, leads, projections⟩ := drafted.columns
  refine ⟨lead,
    columns ++ cursor.zipIdx.map fun c => (c.1, [Path.cursorSegment, Decimal.ofNat c.2]), grows,
    levels, ?_, ?_, ?_, ?_⟩
  · rw [List.map_append, names, List.map_map]
    rfl
  · intro c mem
    rcases List.mem_append.mp mem with mem | mem
    · exact Or.inr (leads c mem)
    · obtain ⟨position, -, rfl⟩ := List.mem_map.mp mem
      exact Or.inl ⟨_, rfl⟩
  · intro c mem
    rcases List.mem_append.mp mem with mem | mem
    · exact (leads c mem).plain plain known
    · obtain ⟨position, -, rfl⟩ := List.mem_map.mp mem
      refine ⟨List.cons_ne_nil _ _, fun n inside => ?_⟩
      rcases List.mem_cons.mp inside with rfl | inside
      · exact Path.plain_cursorSegment
      · rw [List.mem_singleton.mp inside]
        exact Path.plain_ofNat _
  · rw [projections, List.map_append, cursorColumns, List.map_map]
    rfl

/-- The names of the columns are those of the key, of the selection and of the cursor. -/
theorem named_names (drafted : d.Drafted entity selection cursor) :
    (Layout.named d.statement.columnNames).map Prod.fst =
      (entity.keyNames ++ Selection.allNames m entity (entity.wanted selection) ++
        cursor.zipIdx.map (fun c => [Path.cursorSegment, Decimal.ofNat c.2])).eraseDups := by
  obtain ⟨-, columns, -, -, names, -, plainNames, projections⟩ :=
    drafted.exists_columns plain known
  have back : ∀ c ∈ columns, Path.segments (Path.extend "" c.2) = c.2 := fun c mem =>
    Path.segments_extend (plainNames c mem).2 (plainNames c mem).1
  have apart : ∀ ns ∈ columns.map (·.2), ∀ ns' ∈ columns.map (·.2),
      Path.extend "" ns = Path.extend "" ns' → ns = ns' := by
    intro ns mem ns' mem' same
    obtain ⟨c, inside, rfl⟩ := List.mem_map.mp mem
    obtain ⟨c', inside', rfl⟩ := List.mem_map.mp mem'
    rw [← back c inside, ← back c' inside', same]
  have fsts : (Layout.named d.statement.columnNames).map Prod.fst =
      d.statement.columnNames.map Path.segments := by
    rw [Layout.named, List.map_map]
    have comp : (Prod.fst ∘ fun c : String × Nat => (Path.segments c.1, c.2)) =
        Path.segments ∘ Prod.fst := rfl
    rw [comp, ← List.map_map, List.zipIdx_map_fst]
  have paths : columns.map ((·.2) ∘ fun c => (c.1, Path.extend "" c.2)) =
      (columns.map (·.2)).map (Path.extend "") := by
    rw [List.map_map]
    rfl
  rw [fsts, Statement.columnNames, projections, addProjections_names, List.map_map, paths,
    FirstSeen.eraseDups_map apart, List.map_map]
  have each : ∀ ns ∈ (columns.map (·.2)).eraseDups,
      (Path.segments ∘ Path.extend "") ns = ns := by
    intro ns mem
    obtain ⟨c, inside, rfl⟩ := List.mem_map.mp (List.mem_eraseDups.mp mem)
    exact back c inside
  rw [List.map_congr_left each, List.map_id', names]

theorem presented (drafted : d.Drafted entity selection cursor) :
    Presented m entity (none :: (entity.wanted selection).map some)
      (Layout.named d.statement.columnNames) := by
  refine ⟨?_, cursor.zipIdx.map fun c => [Path.cursorSegment, Decimal.ofNat c.2], ?_, ?_⟩
  · intro item mem
    rcases List.mem_cons.mp mem with none | mem
    · cases none
    · obtain ⟨item', inside, same⟩ := List.mem_map.mp mem
      exact Option.some.inj same ▸ drafted.fits item' inside
  · intro ns mem
    obtain ⟨c, -, rfl⟩ := List.mem_map.mp mem
    exact ⟨_, rfl⟩
  · rw [drafted.named_names plain known, List.flatMap_cons, List.flatMap_map,
      Selection.allNames_eq]
    rfl

/-- Every column holds what its names lead to over the levels of the selection. -/
theorem exists_reads (drafted : d.Drafted entity selection cursor) : ∃ lead : Draft m,
    lead.Grows d ∧
    (∀ x, x ∈ lead.levels ↔ x ∈ Selection.allLevels m (Level.ofRoot entity) selection) ∧
    ∀ group, lead.Reads d.statement.row (Level.ofRoot entity) group
      (Layout.named d.statement.columnNames) := by
  obtain ⟨lead, columns, grows, levels, -, leads, plainNames, projections⟩ :=
    drafted.exists_columns plain known
  refine ⟨lead, grows, levels, fun group c mem notCursor => ?_⟩
  obtain ⟨⟨name, i⟩, position, rfl⟩ := List.mem_map.mp mem
  rw [List.mk_mem_zipIdx_iff_getElem?, Statement.columnNames, List.getElem?_map] at position
  obtain ⟨p, here, rfl⟩ := Option.map_eq_some_iff.mp position
  have inside := List.mem_of_getElem? here
  rw [projections] at inside
  rcases mem_addProjections inside with nothing | selected
  · cases nothing
  · obtain ⟨c, memC, same⟩ := List.mem_map.mp selected
    obtain ⟨column, name⟩ := Prod.mk.inj same
    have segments : Path.segments p.name = c.2 := by
      rw [← name]
      exact Path.segments_extend (plainNames c memC).2 (plainNames c memC).1
    simp only [segments] at notCursor ⊢
    refine ⟨p.column, ?_, fun e _ => Statement.at_row here e⟩
    rcases leads c memC with ⟨n, ofCursor⟩ | leads
    · exact absurd ofCursor (notCursor n)
    · exact column ▸ leads

end Draft.Drafted

end EntityGraph
