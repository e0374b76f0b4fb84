import EntityGraph.Proofs.Tree.Records

/-!
# Nodes on the way through a result

Reading goes from the nodes of the root to those below their links, and so on. Every node has its
place in the selection, and is read from combinations of the answer; where the entities on the way
have keys, these are the combinations in which one row stands there. For a link that is not joined
a node shows what this row carries.
-/
namespace EntityGraph

open Nesting

variable {m : Model}

/-! ## Nodes of a result -/

/-- The nodes that are read from a result, each with its place, its rows and its slots. -/
inductive Nesting.Visits (m : Model) (entity : Entity m.size) (items : List Selection)
    (result : RowSet) : Level m → List Selection → List Row → List (String × Slot) → Prop where
  | root {layout : Layout} {rows : List Row} : layout = Layout.ofColumns result.columns →
      rows ∈ Group.groups (valuesAt (Layout.identity layout.keys layout.slots)) result.rows →
      Visits m entity items result (Level.ofRoot entity) items rows layout.slots
  | behind {l : Level m} {wanted : List Selection} {rows group : List Row} {keys : List Nat}
      {slots slots' : List (String × Slot)} {field : Field m.size} {link : Link m.size} :
      Visits m entity items result l wanted rows slots → l.Links field link →
      (field.name, .nested keys slots') ∈ slots →
      group ∈ Group.groups (valuesAt (Layout.identity keys slots')) rows →
      Visits m entity items result (l.below field link) (childrenOf field.name wanted) group slots'

theorem Nesting.Visits.place {entity : Entity m.size} {items wanted : List Selection}
    {result : RowSet} {l : Level m} {rows : List Row} {slots : List (String × Slot)}
    (visits : Visits m entity items result l wanted rows slots) :
    Selection.At m (Level.ofRoot entity) items l wanted := by
  induction visits with
  | root => exact .root
  | behind _ links _ _ ih => exact .behind ih links

/-- Whether an entity and all that are crossed for what is wanted of it have keys. -/
def Database.HasKeys (db : Database) (entity : Entity m.size) (items : List Selection) : Prop :=
  ∀ e, e = entity ∨ Selection.Crosses m entity items e → db.HasKey e

theorem Database.hasKeys_of_all {db : Database} {entity : Entity m.size}
    (known : entity ∈ m.entities) (items : List Selection)
    (all : ∀ e ∈ m.entities, db.HasKey e) : db.HasKeys entity items := by
  rintro e (rfl | crosses)
  · exact all _ known
  · exact all e crosses.mem

/-- How a node is read from an answer: from which combinations, and into the slots of what parts
of a selection. Its columns are what their names lead to in an earlier draft already. Where rows
are told apart by keys and the node shows its own, these are combinations in which one row
stands. -/
structure Draft.Visited (db : Database) (entity : Entity m.size) (items : List Selection)
    (lead d : Draft m) (answer : List Scope) (l : Level m) (wanted : List Selection)
    (rows : List Row) (slots : List (String × Slot)) (parts : List (Option Selection))
    (columns : List Layout.Named) (group : List Scope) : Prop where
  wanted : parts.reduceOption = wanted
  slots : slots = (Layout.ofNamed columns).slots
  rows : rows = group.map d.statement.row
  nonempty : group ≠ []
  inside : ∀ e ∈ group, e ∈ answer
  presented : Presented m l.entity parts columns
  reads : lead.ReadsPast d.statement.row l group columns
  scalars : none ∉ parts → ∀ item, some item ∈ parts →
    ∃ f s, l.entity.field? item.name = some f ∧ f.store = .scalar s
  stands : db.HasKeys entity items → none ∈ parts →
    d.Has l ∧ ∃ t ∈ db.rows l.entity.table, ∀ e ∈ group, e l.tableAlias = t

section

variable {s : Schema} {db : Database} {entity : Entity m.size} {selection : List Selection}
  {cursor : List ColumnRef} {lead d : Draft m} {picked : List Tuple} {answer : List Scope}

namespace Draft.Visited

variable {items wanted : List Selection} {l : Level m} {rows : List Row}
  {slots : List (String × Slot)} {parts : List (Option Selection)} {columns : List Layout.Named}
  {group : List Scope}

/-- A slot for a link of a node is for what is wanted of the target, over all mentions. -/
theorem exists_slot
    (node : lead.Visited db entity items d answer l wanted rows slots parts columns group)
    (plain : m.PlainNames) (known : l.entity ∈ m.entities) {field : Field m.size}
    {link : Link m.size} (links : l.Links field link) {item : Selection} (mem : item ∈ wanted)
    (name : item.name = field.name) :
    Keyed.get? Prod.fst field.name slots =
      some (field.name, .nested (Layout.ofNamed (Layout.tails field.name columns)).keys
        (Layout.ofNamed (Layout.tails field.name columns)).slots) ∧ none ∈ parts := by
  have inside : some item ∈ parts := List.reduceOption_mem_iff.mp (node.wanted ▸ mem)
  have found : l.entity.field? item.name = some field := name ▸ links.1
  constructor
  · rw [node.slots, ← name]
    exact node.presented.slot_link (plain l.entity known) (plain _ (m.get_mem _)) found links.2
      inside
  · by_contra none
    obtain ⟨f, w, foundF, storeF⟩ := node.scalars none item inside
    rw [found] at foundF
    obtain rfl := Option.some.inj foundF
    rw [links.2] at storeF
    cases storeF

end Draft.Visited

section

variable (settled : d.Settled s db entity picked)
  (inside : ∀ e ∈ answer, e ∈ d.combined db picked)
include settled inside

/-- A node of the root is read from combinations that are told apart by nothing at the root. -/
theorem Draft.Settled.visited_root (drafted : d.Drafted entity selection cursor)
    (reads : lead.Reads d.statement.row (Level.ofRoot entity) answer
      (Layout.named d.statement.columnNames)) {group : List Scope}
    (mem : group ∈ Group.groups (d.identity (Layout.named d.statement.columnNames)) answer) :
    lead.Visited db entity (entity.wanted selection) d answer (Level.ofRoot entity)
      (entity.wanted selection) (group.map d.statement.row)
      (Layout.ofNamed (Layout.named d.statement.columnNames)).slots
      (none :: (entity.wanted selection).map some) (Layout.named d.statement.columnNames)
      group := by
  obtain ⟨x, others, first, sub⟩ := Group.exists_cons_of_mem_groups mem
  refine ⟨reduceOption_wanted entity selection, rfl, rfl, first ▸ List.cons_ne_nil _ _, sub,
    drafted.presented settled.plain settled.known, reads.past.mono sub,
    fun none => absurd List.mem_cons_self none,
    fun keys _ => ⟨Or.inl settled.grown.root_eq.symm, ?_⟩⟩
  obtain ⟨firsts, fall⟩ := settled.exists_root_groups drafted inside (keys _ (Or.inl rfl))
  rw [fall.groups] at mem
  obtain ⟨f, memF, rfl⟩ := List.mem_map.mp mem
  exact ⟨f entity.table, ((fall.stands _).mp (List.mem_map_of_mem memF)).1,
    fun e memE => ((fall.members f memF e).mp memE).2⟩

/-- A node behind a link is read from those combinations of a node before it that are told apart
by nothing there. -/
theorem Draft.Visited.below (grows : lead.Grows d) {items wanted : List Selection} {l : Level m}
    {rows : List Row} {slots : List (String × Slot)} {parts : List (Option Selection)}
    {columns : List Layout.Named} {above group : List Scope}
    (node : lead.Visited db entity items d answer l wanted rows slots parts columns above)
    (place : Selection.At m (Level.ofRoot entity) items l wanted) {field : Field m.size}
    {link : Link m.size} (links : l.Links field link) (own : none ∈ parts)
    (mem : group ∈ Group.groups (d.identity (Layout.tails field.name columns)) above) :
    lead.Visited db entity items d answer (l.below field link) (childrenOf field.name wanted)
      (group.map d.statement.row)
      (Layout.ofNamed (Layout.tails field.name columns)).slots
      (partsBelow m link field.name parts) (Layout.tails field.name columns) group := by
  have plainHere := settled.plain l.entity (place.entity_mem settled.known)
  obtain ⟨x, others, first, sub⟩ := Group.exists_cons_of_mem_groups mem
  refine ⟨by rw [reduceOption_partsBelow, node.wanted], rfl, rfl, first ▸ List.cons_ne_nil _ _,
    fun e memE => node.inside e (sub e memE),
    node.presented.below plainHere (settled.plain _ (m.get_mem _)) links.1 links.2,
    (node.reads.below plainHere links.1 links.2).mono sub,
    fun noKey child memC => elided_scalar noKey memC, fun keyed key => ?_⟩
  obtain ⟨has, -⟩ := node.stands keyed own
  obtain ⟨other, memO, sameName, crossed⟩ := exists_crossing key
  have target : db.HasKey (m.get link.target) := by
    have mentioned := List.reduceOption_mem_iff.mpr memO
    rw [node.wanted] at mentioned
    exact keyed _ (Or.inr (place.crosses (.target mentioned (sameName ▸ links.1) links.2 crossed)))
  obtain ⟨joined, firsts, fall⟩ := settled.exists_rowGroups grows has
    (fun e memE => inside e (node.inside e memE)) node.presented node.reads links.1 links.2 key
    target
  rw [fall.groups] at mem
  obtain ⟨f, memF, rfl⟩ := List.mem_map.mp mem
  exact ⟨Or.inr joined, _, ((fall.stands _).mp (List.mem_map_of_mem memF)).1,
    fun e memE => ((fall.members f memF e).mp memE).2⟩

end

/-- Every node is read from combinations of the answer. -/
theorem Draft.Settled.exists_visited (settled : d.Settled s db entity picked)
    (drafted : d.Drafted entity selection cursor)
    (inside : ∀ e ∈ answer, e ∈ d.combined db picked) {statement : Statement}
    (projections : statement.projections = d.statement.projections) {l : Level m}
    {wanted : List Selection} {rows : List Row} {slots : List (String × Slot)}
    (visits : Visits m entity (entity.wanted selection) (statement.rowSet answer) l wanted rows
      slots) :
    ∃ lead : Draft m, lead.Grows d ∧
      (∀ x, x ∈ lead.levels ↔ x ∈ Selection.allLevels m (Level.ofRoot entity) selection) ∧
      ∃ parts columns group, lead.Visited db entity (entity.wanted selection) d answer l wanted
        rows slots parts columns group := by
  rw [Statement.rowSet_eq projections] at visits
  obtain ⟨lead, grows, levels, each⟩ := drafted.exists_reads settled.plain settled.known
  refine ⟨lead, grows, levels, ?_⟩
  induction visits with
  | @root layout rows isLayout mem =>
    subst isLayout
    simp only [Statement.rowSet, Layout.ofColumns_named, groups_rows] at mem ⊢
    obtain ⟨group, memG, rfl⟩ := List.mem_map.mp mem
    exact ⟨_, _, _, settled.visited_root inside drafted (each answer) memG⟩
  | @behind l wanted rows group keys slots slots' field link visits links memSlot mem ih =>
    obtain ⟨parts, columns, above, node⟩ := ih
    have known := visits.place.entity_mem settled.known
    rw [node.slots] at memSlot
    obtain ⟨item, memI, name, here⟩ :=
      node.presented.exists_item (settled.plain l.entity known) memSlot
    obtain ⟨slot, own⟩ := node.exists_slot settled.plain known links
      (node.wanted ▸ List.reduceOption_mem_iff.mpr memI) name
    rw [node.slots, here] at slot
    obtain ⟨rfl, rfl⟩ := Slot.nested.inj (Prod.mk.inj (Option.some.inj slot)).2
    rw [node.rows, groups_rows] at mem
    obtain ⟨group, memG, rfl⟩ := List.mem_map.mp mem
    exact ⟨_, _, _, node.below settled inside grows visits.place links own memG⟩

end

/-! ## Links that are not joined -/

/-- How the document that is read for a link that is not joined, from the row `t`, compares with
the row behind the link. -/
structure Link.Elision (db : Database) (m : Model) (e : Entity m.size) (field : Field m.size)
    (link : Link m.size) (children : List Selection) (held : List (String × String)) (t : Tuple)
    (read : Except Error Json) : Prop where
  /-- It is the row that the source carries, unless all that is wanted of it is null. -/
  carries : read = link.shown m (wantedNames children)
    (if ∀ c ∈ held, t c.2 = .null then none else some (link.carried t))
  /-- Where a whole key finds one row, with identical values, this is what the target would show
  unless the key is null in part and what is wanted of it is not null throughout. -/
  joined : link.Refers db m t → ∃ behind, (∀ r, link.Behind db m t r ↔ behind = some r) ∧
    (read = link.shown m (wantedNames children) behind ↔
      (∀ c ∈ link.columns, t c ≠ .null) ∨ ∀ c ∈ held, t c.2 = .null) ∧
    ∀ v, link.shown m (wantedNames children) behind = .ok v →
      ShowsField db m e t children field.name v

/-- Over a key of one column this is always what the target would show. -/
theorem Link.Elision.eq_of_single {db : Database} {e : Entity m.size} {field : Field m.size}
    {link : Link m.size} {children : List Selection} {held : List (String × String)} {t : Tuple}
    {read : Except Error Json} (elision : link.Elision db m e field children held t read)
    (refers : link.Refers db m t) (elided : elidedColumns? m link children = some held)
    {column : String} (single : link.columns = [column]) :
    ∃ behind, (∀ r, link.Behind db m t r ↔ behind = some r) ∧
      read = link.shown m (wantedNames children) behind ∧
      ∀ v, read = .ok v → ShowsField db m e t children field.name v := by
  obtain ⟨behind, behindIff, same, shows⟩ := elision.joined refers
  have equal := same.mpr <| by
    by_cases null : t column = .null
    · refine Or.inr fun c mem => ?_
      have inside := held_mem_columns elided mem
      rw [single, List.mem_singleton] at inside
      rw [inside, null]
    · exact Or.inl (by simpa [single] using null)
  exact ⟨behind, behindIff, equal, fun v ok => shows v (equal ▸ ok)⟩

/-- A node shows of a link that is not joined what its source carries. -/
theorem Draft.Visited.exists_elision {s : Schema} {db : Database} {entity : Entity m.size}
    {items wanted : List Selection} {lead d : Draft m} {answer group : List Scope} {l : Level m}
    {rows : List Row} {slots : List (String × Slot)} {parts : List (Option Selection)}
    {columns : List Layout.Named}
    (node : lead.Visited db entity items d answer l wanted rows slots parts columns group)
    (plain : m.PlainNames) (known : l.entity ∈ m.entities) {table : Table} {field : Field m.size}
    {link : Link m.size} (links : l.Links field link) (mirrors : link.Mirrors s m table field)
    {held : List (String × String)} (mentioned : childrenOf field.name wanted ≠ [])
    (elided : elidedColumns? m link (childrenOf field.name wanted) = some held)
    (apart : l.below field link ∉ lead.levels) :
    ∃ slot, (field.name, slot) ∈ slots ∧ ∀ t, (∀ e ∈ group, e l.tableAlias = t) →
      link.Elision db m l.entity field (childrenOf field.name wanted) held t
        (member m l.entity field rows slot) := by
  obtain ⟨child, memC⟩ := List.exists_mem_of_ne_nil _ mentioned
  obtain ⟨item, memI, name, -⟩ := mem_childrenOf.mp memC
  obtain ⟨slot, -⟩ := node.exists_slot plain known links memI name
  refine ⟨_, Keyed.mem_of_get? slot, fun t here => ?_⟩
  obtain rfl := node.wanted
  have carries := member_carried plain known node.presented node.reads links elided apart
    node.nonempty here
  rw [← node.rows] at carries
  refine ⟨carries, fun refers => ?_⟩
  obtain ⟨behind, behindIff⟩ := refers.exists_behind mirrors
  refine ⟨behind, behindIff, ?_, fun v => ?_⟩
  · rw [carries]
    exact refers.shown_carried_iff behindIff mirrors elided mentioned
  · obtain ⟨-, -, one, -⟩ := elidedColumns?_eq_some.mp elided
    exact Link.showsField_of_shown behindIff links.1 links.2 one

end EntityGraph
