import EntityGraph.Proofs.Plan.Answered
import EntityGraph.Proofs.Tree.Nodes

/-!
# Records of an answer

The rows of an answer make one record for every row of the root that stands in it, in the order
in which these first appear. The cursor of a record holds what its row has in the columns of
the list's order.
-/
namespace EntityGraph

open Nesting

variable {m : Model} {entity : Entity m.size} {selection : List Selection}
  {cursor : List ColumnRef} {d : Draft m}

/-! ## Cursors -/

/-- The columns of the cursor hold what is selected under its names. -/
theorem Statement.cursor_values (s : Statement) (e : Scope) :
    (Layout.cursorColumns s.columnNames).map (s.row e).at =
      (s.projections.filter fun p => Layout.isCursor p.name).map fun p => e.reading p.column := by
  have value : ∀ c ∈ s.projections.zipIdx,
      (if Layout.isCursor c.1.name then some ((s.row e).at c.2) else none) =
        if Layout.isCursor c.1.name then some (e.reading c.1.column) else none := by
    rintro ⟨p, i⟩ mem
    rw [List.mk_mem_zipIdx_iff_getElem?] at mem
    rw [Statement.at_row mem e]
  have chosen : (Layout.cursorColumns s.columnNames).map (s.row e).at =
      s.projections.zipIdx.filterMap fun c =>
        if Layout.isCursor c.1.name then some ((s.row e).at c.2) else none := by
    rw [Layout.cursorColumns, Statement.columnNames, List.zipIdx_map, List.filterMap_map,
      List.map_filterMap]
    apply List.filterMap_congr
    rintro ⟨p, i⟩ -
    by_cases ofCursor : Layout.isCursor p.name = true <;> simp [ofCursor]
  have first : (s.projections.zipIdx.filterMap fun c =>
        if Layout.isCursor c.1.name then some (e.reading c.1.column) else none) =
      (s.projections.zipIdx.map Prod.fst).filterMap fun p =>
        if Layout.isCursor p.name then some (e.reading p.column) else none := by
    rw [List.filterMap_map]
    rfl
  rw [chosen, List.filterMap_congr value, first, List.zipIdx_map_fst]
  induction s.projections with
  | nil => rfl
  | cons p ps ih =>
    by_cases ofCursor : Layout.isCursor p.name = true
    · simp [ofCursor, ih]
    · simp [ofCursor, ih]

/-- Columns under names that are not taken are selected as they are. -/
theorem addProjections_fresh {ps : List Projection} {columns : List (ColumnRef × String)}
    (distinct : (columns.map (·.2)).Nodup) (fresh : ∀ c ∈ columns, ∀ p ∈ ps, p.name ≠ c.2) :
    addProjections ps columns = ps ++ columns.map fun c => ⟨c.1, c.2⟩ := by
  induction columns generalizing ps with
  | nil => simp [addProjections]
  | cons c columns ih =>
    obtain ⟨first, rest⟩ := List.nodup_cons.mp distinct
    have notTaken : ¬ ps.any (·.name == c.2) = true := by
      rw [List.any_eq_true]
      rintro ⟨p, mem, same⟩
      exact fresh c List.mem_cons_self p mem (by simpa using same)
    have step : addProjections ps (c :: columns) = addProjections
        (if ps.any (·.name == c.2) then ps else ps ++ [⟨c.1, c.2⟩]) columns := rfl
    rw [step, if_neg notTaken, ih rest, List.append_assoc]
    · rfl
    · intro c' mem p inside
      rcases List.mem_append.mp inside with old | new
      · exact fresh c' (List.mem_cons_of_mem c mem) p old
      · rw [List.mem_singleton.mp new]
        intro same
        exact first (List.mem_map.mpr ⟨c', mem, same.symm⟩)

/-- A column with a place under a name of its own is none of the cursor. -/
theorem isCursor_of_headOf {column name : String}
    (head : Layout.headOf (Path.segments column) = some name) :
    Layout.isCursor column = false := by
  unfold Layout.isCursor
  generalize Path.segments column = ns at head
  match ns with
  | [] => cases head
  | [_] => rfl
  | first :: _ :: _ =>
    by_cases ofCursor : first = Path.cursorSegment
    · simp [Layout.headOf, ofCursor] at head
    · simpa using ofCursor

theorem isCursor_cursor (i : Nat) : Layout.isCursor (Path.cursor i) = true := by
  have whole : Path.cursor i = Path.extend "" [Path.cursorSegment, Decimal.ofNat i] := rfl
  have segments := @Path.segments_extend [Path.cursorSegment, Decimal.ofNat i]
    (by simpa using ⟨Path.plain_cursorSegment, Path.plain_ofNat i⟩) (List.cons_ne_nil _ _)
  rw [Layout.isCursor, whole, segments]
  rfl

theorem cursorColumns_nodup (start : Nat) (columns : List ColumnRef) :
    ((cursorColumns start columns).map (·.2)).Nodup := by
  have apart : Function.Injective Path.cursor := by
    intro i j same
    rw [Path.cursor, Path.cursor] at same
    have tails := congrArg String.toList same
    simp only [String.toList_append, List.append_cancel_left_eq] at tails
    exact Decimal.ofNat_injective (String.toList_injective tails)
  have positions : (cursorColumns start columns).map (·.2) =
      ((columns.zipIdx start).map Prod.snd).map Path.cursor := by
    rw [cursorColumns, List.map_map, List.map_map]
    rfl
  rw [positions, List.zipIdx_map_snd]
  exact (List.nodup_range').map apart

namespace Draft.Drafted

variable (plain : m.PlainNames) (known : entity ∈ m.entities)
include plain known

/-- The columns of the cursor are selected last, and no other column is under such a name. -/
theorem exists_selected (drafted : d.Drafted entity selection cursor) :
    ∃ selected : List Projection, (∀ p ∈ selected, Layout.isCursor p.name = false) ∧
      d.statement.projections =
        selected ++ cursor.zipIdx.map fun c => ⟨c.1, Path.cursor c.2⟩ := by
  obtain ⟨lead, columns, -, -, names, leads, projections⟩ := drafted.columns
  have plainHere := plain entity known
  -- no column of the selection is under a name of the cursor
  have apart : ∀ c ∈ columns, Layout.isCursor (Path.extend "" c.2) = false := by
    intro c mem
    obtain ⟨some, plainNames⟩ := (leads c mem).plain plain known
    have segments := Path.segments_extend plainNames some
    have inside : c.2 ∈ columns.map (·.2) := List.mem_map_of_mem mem
    rw [names] at inside
    rcases List.mem_append.mp inside with key | wanted
    · obtain ⟨f, -, same⟩ := List.mem_map.mp key
      rw [Layout.isCursor, segments, ← same]
      rfl
    · rw [Selection.allNames_eq] at wanted
      obtain ⟨item, memI, here⟩ := List.mem_flatMap.mp wanted
      apply isCursor_of_headOf
      rw [segments]
      exact (drafted.fits item memI).headOf plainHere _ here
  have selected : ∀ p ∈ addProjections [] (columns.map fun c => (c.1, Path.extend "" c.2)),
      Layout.isCursor p.name = false := by
    intro p mem
    rcases mem_addProjections mem with nothing | inside
    · cases nothing
    · obtain ⟨c, memC, same⟩ := List.mem_map.mp inside
      rw [← (Prod.mk.inj same).2]
      exact apart c memC
  have fresh : ∀ c ∈ cursorColumns 0 cursor,
      ∀ p ∈ addProjections [] (columns.map fun c => (c.1, Path.extend "" c.2)), p.name ≠ c.2 := by
    intro c mem p inside same
    obtain ⟨⟨column, i⟩, -, rfl⟩ := List.mem_map.mp mem
    have notCursor := selected p inside
    rw [same, isCursor_cursor] at notCursor
    cases notCursor
  refine ⟨_, selected, ?_⟩
  rw [projections, addProjections_append,
    addProjections_fresh (cursorColumns_nodup 0 cursor) fresh, cursorColumns, List.map_map]
  rfl

/-- The cursor of a row has the values of the columns of the order. -/
theorem cursor_values (drafted : d.Drafted entity selection cursor) (e : Scope) :
    (Layout.cursorColumns d.statement.columnNames).map (d.statement.row e).at =
      cursor.map e.reading := by
  obtain ⟨selected, notCursor, projections⟩ := drafted.exists_selected plain known
  have none : selected.filter (fun p => Layout.isCursor p.name) = [] :=
    List.filter_eq_nil_iff.mpr fun p mem => by simp [notCursor p mem]
  have all : (cursor.zipIdx.map fun c => Projection.mk c.1 (Path.cursor c.2)).filter
      (fun p => Layout.isCursor p.name) = cursor.zipIdx.map fun c => ⟨c.1, Path.cursor c.2⟩ := by
    rw [List.filter_eq_self]
    intro p mem
    obtain ⟨c, -, rfl⟩ := List.mem_map.mp mem
    exact isCursor_cursor c.2
  have values : ((fun p : Projection => e.reading p.column) ∘
      fun c : ColumnRef × Nat => ⟨c.1, Path.cursor c.2⟩) = e.reading ∘ Prod.fst := rfl
  rw [Statement.cursor_values, projections, List.filter_append, none, all, List.nil_append,
    List.map_map, values, ← List.map_map, List.zipIdx_map_fst]

/-- These columns are found behind all others, one for each of the order. -/
theorem cursorColumns_eq (drafted : d.Drafted entity selection cursor) :
    ∃ start, Layout.cursorColumns d.statement.columnNames = List.range' start cursor.length ∧
      ∀ i (_ : i < cursor.length),
        d.statement.projections[start + i]? = some ⟨cursor[i], Path.cursor i⟩ := by
  obtain ⟨selected, notCursor, projections⟩ := drafted.exists_selected plain known
  refine ⟨selected.length, ?_, fun i small => ?_⟩
  · have ofCursor : ∀ name ∈ (cursor.zipIdx.map fun c => Projection.mk c.1 (Path.cursor c.2)).map
        (·.name), Layout.isCursor name = true := by
      intro name mem
      obtain ⟨p, inside, rfl⟩ := List.mem_map.mp mem
      obtain ⟨c, -, rfl⟩ := List.mem_map.mp inside
      exact isCursor_cursor c.2
    rw [Layout.cursorColumns, Statement.columnNames, projections, List.map_append,
      List.zipIdx_append, List.filterMap_append, List.filterMap_eq_nil_iff.mpr, List.nil_append]
    · have second : ∀ c ∈ ((cursor.zipIdx.map fun c =>
          Projection.mk c.1 (Path.cursor c.2)).map (·.name)).zipIdx
            (0 + (selected.map (·.name)).length),
          (if Layout.isCursor c.1 then some c.2 else none) = some c.2 := by
        intro c mem
        rw [if_pos (ofCursor c.1 (List.fst_mem_of_mem_zipIdx mem))]
      rw [List.filterMap_congr second, List.filterMap_eq_map', List.zipIdx_map_snd]
      simp
    · intro c mem
      obtain ⟨p, inside, same⟩ := List.mem_map.mp (List.fst_mem_of_mem_zipIdx mem)
      simp [← same, notCursor p inside]
  · rw [projections, List.getElem?_append_right (Nat.le_add_right _ _), Nat.add_sub_cancel_left]
    simp [small]

end Draft.Drafted

/-! ## One record for every row -/

theorem reduceOption_wanted (entity : Entity m.size) (selection : List Selection) :
    (none :: (entity.wanted selection).map some).reduceOption = entity.wanted selection := by
  rw [List.reduceOption_cons_of_none, reduceOption_map_some]

variable {s : Schema} {db : Database} {rows : List Tuple} {answer : List Scope}

/-- At the root the combinations of an answer are told apart by the key: there is one group for
each row that stands there. -/
theorem Draft.Settled.exists_root_groups (settled : d.Settled s db entity rows)
    (drafted : d.Drafted entity selection cursor)
    (inside : ∀ e ∈ answer, e ∈ d.combined db rows) (key : db.HasKey entity) : ∃ firsts,
      d.RowGroups db (Level.ofRoot entity) (Layout.named d.statement.columnNames) answer
        firsts := by
  have plainHere := settled.plain entity settled.known
  obtain ⟨table, mirror⟩ := settled.mirrors entity settled.known
  have presented := drafted.presented settled.plain settled.known
  obtain ⟨lead, -, -, reads⟩ := drafted.exists_reads settled.plain settled.known
  have tells := @tells_key m lead d (Level.ofRoot entity) answer _ _ plainHere mirror.distinct
    presented (reads answer).past List.mem_cons_self key.some
  exact Draft.exists_rowGroups tells key fun e mem =>
    Or.inl (settled.stored _ (settled.grown.root_mem settled.distinct (inside e mem)))

/-- Whether the records of an answer are one for every row of the root that stands there, read from
all combinations in which the row does. -/
structure Draft.RowRecords (d : Draft m) (entity : Entity m.size) (statement : Statement)
    (answer firsts : List Scope) : Prop where
  sublist : firsts.Sublist answer
  distinct : (firsts.map (· entity.table)).Nodup
  stands : ∀ t, t ∈ firsts.map (· entity.table) ↔ ∃ e ∈ answer, e entity.table = t
  members : ∀ f ∈ firsts, ∀ e, e ∈ d.sameAs (Layout.named d.statement.columnNames) answer f ↔
    e ∈ answer ∧ e entity.table = f entity.table
  records : records m entity (statement.rowSet answer) = firsts.map fun f =>
    record m entity (Layout.ofNamed (Layout.named d.statement.columnNames))
      (Layout.cursorColumns d.statement.columnNames)
      ((d.sameAs (Layout.named d.statement.columnNames) answer f).map d.statement.row)

theorem Draft.Settled.exists_rowRecords (settled : d.Settled s db entity rows)
    (drafted : d.Drafted entity selection cursor)
    (inside : ∀ e ∈ answer, e ∈ d.combined db rows) (key : db.HasKey entity)
    {statement : Statement} (projections : statement.projections = d.statement.projections) :
    ∃ firsts, d.RowRecords entity statement answer firsts := by
  obtain ⟨firsts, fall⟩ := settled.exists_root_groups drafted inside key
  refine ⟨firsts, fall.sublist, fall.distinct, fun t => (fall.stands t).trans
    ⟨fun both => both.2, ?_⟩, fall.members, ?_⟩
  · rintro ⟨e, mem, rfl⟩
    exact ⟨settled.stored _ (settled.grown.root_mem settled.distinct (inside e mem)), e, mem, rfl⟩
  · rw [Statement.rowSet_eq projections, Nesting.records]
    simp only [Statement.rowSet, Layout.ofColumns_named]
    rw [groups_rows, fall.groups, List.map_map, List.map_map]
    rfl

/-- What is read can be told of the rows. -/
theorem Draft.RowRecords.exists_outcome {statement : Statement} {firsts : List Scope}
    (recorded : d.RowRecords entity statement answer firsts) :
    ∃ outcome : Tuple → Except Error Record,
      Nesting.records m entity (statement.rowSet answer) =
        (firsts.map (· entity.table)).map outcome ∧
      ∀ f ∈ firsts, outcome (f entity.table) =
        record m entity (Layout.ofNamed (Layout.named d.statement.columnNames))
          (Layout.cursorColumns d.statement.columnNames)
          ((d.sameAs (Layout.named d.statement.columnNames) answer f).map d.statement.row) := by
  obtain ⟨outcome, told⟩ := FirstSeen.exists_factor (.ok ⟨[], []⟩) (fun f : Scope =>
    record m entity (Layout.ofNamed (Layout.named d.statement.columnNames))
      (Layout.cursorColumns d.statement.columnNames)
      ((d.sameAs (Layout.named d.statement.columnNames) answer f).map d.statement.row))
    recorded.distinct
  refine ⟨outcome, ?_, told⟩
  rw [recorded.records, List.map_map]
  exact List.map_congr_left fun f mem => (told f mem).symm

/-- The cursor of a record holds the columns of the order of its row. -/
theorem Draft.Drafted.record_cursor (drafted : d.Drafted entity selection cursor)
    (plain : m.PlainNames) (known : entity ∈ m.entities)
    (onRoot : ∀ c ∈ cursor, c.tableAlias = entity.table) {t : Tuple} {group : List Scope}
    (some : group ≠ []) (here : ∀ e ∈ group, e entity.table = t) :
    (Layout.cursorColumns d.statement.columnNames).map
      (shared (group.map d.statement.row)) = cursor.map fun c => t c.column := by
  obtain ⟨e, rest, rfl⟩ := List.exists_cons_of_ne_nil some
  have first : shared ((e :: rest).map d.statement.row) = (d.statement.row e).at := rfl
  rw [first, drafted.cursor_values plain known]
  apply List.map_congr_left
  intro c mem
  rw [Scope.reading, onRoot c mem, ← here e List.mem_cons_self]

namespace Draft.Sound

variable (sound : d.Sound s db entity rows) (drafted : d.Drafted entity selection cursor)
  (perm : answer.Perm (d.combined db rows))
include sound drafted perm

omit drafted in
/-- The root rows of an answer each stand in all combinations that an answer has for them. -/
theorem stands_root {t : Tuple} {group : List Scope} (some : group ≠ [])
    (members : ∀ e, e ∈ group ↔ e ∈ answer ∧ e entity.table = t) :
    d.Stands db rows (Level.ofRoot entity) t group := by
  have isRoot := sound.grown.root_eq
  have has : d.Has (Level.ofRoot entity) := Or.inl isRoot.symm
  have inside : ∀ e ∈ group, e ∈ d.combined db rows := fun e mem =>
    perm.mem_iff.mp ((members e).mp mem).1
  refine ⟨has, ?_, some, inside, fun e mem => ((members e).mp mem).2, ?_⟩
  · obtain ⟨e, mem⟩ := List.exists_mem_of_ne_nil _ some
    rw [← ((members e).mp mem).2]
    exact sound.stored _ (sound.grown.root_mem sound.distinct (inside e mem))
  · intro e mem e' combined agree
    obtain ⟨-, here⟩ := (members e).mp mem
    have same := agree _ has fun _ => rfl
    exact (members e').mpr ⟨perm.mem_iff.mpr combined, same.trans here⟩

/-- There is one record for every root row of an answer, read from all that the answer has for
this row. -/
theorem exists_records (key : db.HasKey entity) {statement : Statement}
    (projections : statement.projections = d.statement.projections) :
    ∃ firsts, d.RowRecords entity statement answer firsts ∧
      ∀ f ∈ firsts, d.Stands db rows (Level.ofRoot entity) (f entity.table)
        (d.sameAs (Layout.named d.statement.columnNames) answer f) := by
  obtain ⟨firsts, recorded⟩ := sound.settled.exists_rowRecords drafted
    (fun e mem => perm.mem_iff.mp mem) key projections
  refine ⟨firsts, recorded, fun f mem => ?_⟩
  have here := (recorded.members f mem f).mpr ⟨recorded.sublist.mem mem, rfl⟩
  exact sound.stands_root perm (List.ne_nil_of_mem here) (recorded.members f mem)

omit perm in
/-- The rows for a node of the root show what the model says of the row that stands there. -/
theorem members_shows_root (agrees : db.ReferencesAgree s) (uniques : db.UniquesHold s)
    (decodable : db.Decodable m)
    (keyed : ∀ e', Selection.Crosses m entity (entity.wanted selection) e' → db.HasKey e')
    {t : Tuple} {group : List Scope} (stands : d.Stands db rows (Level.ofRoot entity) t group) :
    ∃ node, members m entity (group.map d.statement.row)
        (Layout.ofNamed (Layout.named d.statement.columnNames)).slots = .ok node ∧
      Shows db m entity t (entity.wanted selection) node := by
  obtain ⟨longest, short⟩ := Layout.exists_longest (Layout.named d.statement.columnNames)
  have presented := drafted.presented sound.plain sound.known
  obtain ⟨lead, grows, levels, reads⟩ := drafted.exists_reads sound.plain sound.known
  have place : Selection.At m (Level.ofRoot entity) (entity.wanted selection)
      (Level.ofRoot entity) (none :: (entity.wanted selection).map some).reduceOption := by
    rw [reduceOption_wanted]
    exact .root
  obtain ⟨node, read, shows⟩ := sound.members_shows grows levels agrees uniques decodable keyed
    longest short stands place presented (reads group)
  rw [reduceOption_wanted] at shows
  exact ⟨node, read, shows⟩

end Draft.Sound

end EntityGraph
