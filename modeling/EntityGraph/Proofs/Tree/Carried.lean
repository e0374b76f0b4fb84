import EntityGraph.Proofs.Draft.Inner
import EntityGraph.Proofs.Tree.Nested

/-!
# Links that are not crossed

Where the source of a link holds all that is wanted of the target, the node behind the link is
made up of the columns of the source. It shows unless these are null throughout, whatever else
there is in the key; the row behind the link is there where nothing in the key is null.
-/
namespace EntityGraph

open Nesting

variable {m : Model}

/-! ## Nodes of scalars alone -/

/-- The document of a row's scalar with this name. -/
def Entity.scalarValue (e : Entity m.size) (t : Tuple) (name : String) : Except Error Json := do
  let field ← e.field name
  let s ← field.scalar
  s.decode (t s.column)

/-- The members of a row's node for scalars with these names. -/
def Entity.scalarMembers (e : Entity m.size) (t : Tuple) (names : List String) :
    Except Error (List (String × Json)) :=
  names.mapM fun name => (name, ·) <$> e.scalarValue t name

/-- The names that are wanted, each where it is first mentioned. -/
def wantedNames (items : List Selection) : List String :=
  (items.map (·.name)).eraseDups

/-- The members of a node that has scalars alone are those of its row. -/
theorem Nesting.members_scalars {e : Entity m.size} {rows : List Row} {t : Tuple}
    {slots : List (String × Slot)} (each : ∀ name slot, (name, slot) ∈ slots → ∃ f s i,
      e.field? name = some f ∧ f.store = .scalar s ∧ slot = .scalar i ∧
        shared rows i = t s.column) :
    members m e rows slots = e.scalarMembers t (slots.map (·.1)) := by
  induction slots with
  | nil => exact members_nil
  | cons slot slots ih =>
    obtain ⟨name, slot⟩ := slot
    obtain ⟨f, s, i, found, store, rfl, value⟩ := each name slot List.mem_cons_self
    have rest := ih fun name slot mem => each name slot (List.mem_cons_of_mem _ mem)
    rw [Entity.scalarMembers] at rest
    rw [members_cons found, member_scalar store, value, Entity.scalarMembers, List.map_cons,
      List.mapM_cons, ← rest]
    simp only [Entity.scalarValue, Entity.field_eq_ok.mpr found, Field.scalar_eq_ok.mpr store,
      bind, Except.bind, pure, Except.pure]
    cases s.decode (t s.column) <;> rfl

/-- Scalars in which rows do not differ are shown alike. -/
theorem Entity.scalarMembers_congr {e : Entity m.size} {t r : Tuple} {names : List String}
    (same : ∀ name ∈ names, ∀ f s, e.field? name = some f → f.store = .scalar s →
      t s.column = r s.column) : e.scalarMembers t names = e.scalarMembers r names := by
  have each : ∀ name ∈ names, e.scalarValue t name = e.scalarValue r name := by
    intro name mem
    unfold scalarValue
    cases field : e.field name with
    | error _ => rfl
    | ok f =>
      cases scalar : f.scalar with
      | error _ => simp only [scalar, bind, Except.bind]
      | ok s =>
        have value := same name mem f s (Entity.field_eq_ok.mp field) (Field.scalar_eq_ok.mp scalar)
        simp only [scalar, bind, Except.bind, value]
  clear same
  unfold scalarMembers
  induction names with
  | nil => rfl
  | cons name names ih =>
    rw [List.mapM_cons, List.mapM_cons, each name List.mem_cons_self,
      ih fun n mem => each n (List.mem_cons_of_mem _ mem)]

/-- The members of a row's node for scalars show what is wanted of it. -/
theorem Entity.shows_scalarMembers {db : Database} {e : Entity m.size} {r : Tuple}
    {items : List Selection} {node : List (String × Json)}
    (read : e.scalarMembers r (wantedNames items) = .ok node) : Shows db m e r items node := by
  have each := Outcome.mapM_eq_ok.mp read
  let value : String → Json := fun name => ((e.scalarValue r name).toOption).getD .null
  have here : ∀ name p, (name, ·) <$> e.scalarValue r name = .ok p →
      e.scalarValue r name = .ok (value name) ∧ p = (name, value name) := by
    intro name p ok
    obtain ⟨v, read, rfl⟩ := Outcome.map_eq_ok.mp ok
    simp only [value, read, Except.toOption, Option.getD_some, and_self]
  have whole : node = (wantedNames items).map fun name => (name, value name) := by
    rw [← List.forall₂_eq_eq_eq, List.forall₂_map_right_iff]
    exact (each.imp fun name p ok => (here name p ok).2).flip
  rw [whole]
  refine .node value fun item mem => ?_
  have wanted : item.name ∈ wantedNames items :=
    List.mem_eraseDups.mpr (List.mem_map_of_mem mem)
  obtain ⟨p, -, ok⟩ := Outcome.exists_of_mem_left each wanted
  obtain ⟨f, found, rest⟩ := Outcome.bind_eq_ok.mp (here _ _ ok).1
  obtain ⟨s, store, decoded⟩ := Outcome.bind_eq_ok.mp rest
  exact .scalar (Entity.field_eq_ok.mp found) (Field.scalar_eq_ok.mp store) decoded

/-- Where all values have documents, scalars of a row can be shown. -/
theorem Entity.exists_scalarMembers {db : Database} (decodable : db.Decodable m)
    {e : Entity m.size} (known : e ∈ m.entities) {r : Tuple} (row : r ∈ db.rows e.table)
    {names : List String} (scalars : ∀ name ∈ names, ∃ f s, e.field? name = some f ∧
      f.store = .scalar s) : ∃ node, e.scalarMembers r names = .ok node := by
  induction names with
  | nil => exact ⟨[], rfl⟩
  | cons name names ih =>
    obtain ⟨f, s, found, store⟩ := scalars name List.mem_cons_self
    obtain ⟨rest, later⟩ := ih fun n mem => scalars n (List.mem_cons_of_mem _ mem)
    obtain ⟨v, decoded⟩ :=
      decodable e known f s (Entity.mem_scalars.mpr ⟨Entity.mem_of_field? found, store⟩) r row
    have value : e.scalarValue r name = .ok v := Outcome.bind_eq_ok.mpr
      ⟨f, Entity.field_eq_ok.mpr found,
        Outcome.bind_eq_ok.mpr ⟨s, Field.scalar_eq_ok.mpr store, decoded⟩⟩
    exact ⟨(name, v) :: rest, Outcome.mapM_eq_ok.mpr
      (.cons (Outcome.map_eq_ok.mpr ⟨v, value, rfl⟩) (Outcome.mapM_eq_ok.mp later))⟩

/-! ## Mentions of a link -/

/-- A link that shows its key has been mentioned so that it has to be crossed. -/
theorem exists_crossing {link : Link m.size} {name : String} {parts : List (Option Selection)}
    (key : none ∈ partsBelow m link name parts) : ∃ item, some item ∈ parts ∧ item.name = name ∧
      elidedColumns? m link item.children = none := by
  obtain ⟨part, mem, here⟩ := List.mem_flatMap.mp key
  cases part with
  | none => cases here
  | some item =>
    by_cases same : item.name = name
    · rw [partBelow, if_pos same] at here
      cases elided : elidedColumns? m link item.children with
      | some held => simp [spread_held elided] at here
      | none => exact ⟨item, mem, same, elided⟩
    · rw [partBelow, if_neg same] at here
      cases here

/-- A link of which the source holds all that is wanted shows no key. -/
theorem no_key_of_elided {link : Link m.size} {name : String} {parts : List (Option Selection)}
    {held : List (String × String)}
    (elided : elidedColumns? m link (childrenOf name parts.reduceOption) = some held) :
    none ∉ partsBelow m link name parts := by
  intro key
  obtain ⟨item, mem, same, crossed⟩ := exists_crossing key
  have sub : item.children ⊆ childrenOf name parts.reduceOption := fun c inside =>
    mem_childrenOf.mpr ⟨item, List.reduceOption_mem_iff.mpr mem, same, inside⟩
  obtain ⟨held', some⟩ := exists_elided_of_subset elided sub
  rw [crossed] at some
  cases some

/-- Where a link is mentioned and shows no key, the source holds all that is wanted. -/
theorem exists_elided_of_no_key {link : Link m.size} {name : String}
    {parts : List (Option Selection)} (noKey : none ∉ partsBelow m link name parts)
    {item : Selection} (mem : some item ∈ parts) (same : item.name = name) :
    ∃ held, elidedColumns? m link (childrenOf name parts.reduceOption) = some held := by
  have each : ∀ other, some other ∈ parts → other.name = name →
      ∃ held, elidedColumns? m link other.children = some held := by
    intro other mem same
    cases elided : elidedColumns? m link other.children with
    | some held => exact ⟨held, rfl⟩
    | none =>
      refine absurd (List.mem_flatMap.mpr ⟨some other, mem, ?_⟩) noKey
      rw [partBelow, if_pos same, spread_joined elided]
      exact List.mem_cons_self
  obtain ⟨held, elided⟩ := each item mem same
  obtain ⟨owner, pivot, one, -⟩ := elidedColumns?_eq_some.mp elided
  refine exists_elided_of_holds owner pivot one fun child memC => ?_
  obtain ⟨other, memO, sameO, inside⟩ := mem_childrenOf.mp memC
  obtain ⟨held', elided'⟩ := each other (List.reduceOption_mem_iff.mp memO) sameO
  obtain ⟨-, -, -, all⟩ := elidedColumns?_eq_some.mp elided'
  obtain ⟨c, -, holds⟩ := Outcome.exists_of_mem_left all inside
  exact ⟨c, holds⟩

/-- What is wanted of a target that shows no key are scalars. -/
theorem elided_scalar {link : Link m.size} {name : String} {parts : List (Option Selection)}
    (noKey : none ∉ partsBelow m link name parts) {child : Selection}
    (mem : some child ∈ partsBelow m link name parts) :
    ∃ wanted w, (m.get link.target).field? child.name = some wanted ∧
      wanted.store = .scalar w := by
  have inside := mem_partsBelow.mp mem
  obtain ⟨item, memI, same, -⟩ := mem_childrenOf.mp inside
  obtain ⟨held, elided⟩ :=
    exists_elided_of_no_key noKey (List.reduceOption_mem_iff.mp memI) same
  obtain ⟨-, -, -, each⟩ := elidedColumns?_eq_some.mp elided
  obtain ⟨c, -, -, -, wanted, w, found, store, -⟩ := Outcome.exists_of_mem_left each inside
  exact ⟨wanted, w, found, store⟩

/-- Where no key is shown, a level is told apart by its scalars. -/
theorem mem_identity {e : Entity m.size} {parts : List (Option Selection)}
    {columns : List Layout.Named} (plain : ∀ f ∈ e.fields, FieldName f.name)
    (presented : Presented m e parts columns) (noKey : none ∉ parts) {i : Nat} :
    i ∈ Layout.identity (Layout.ofNamed columns).keys (Layout.ofNamed columns).slots ↔
      ∃ child, some child ∈ parts ∧
        Keyed.get? Prod.fst child.name (Layout.ofNamed columns).slots =
          some (child.name, .scalar i) := by
  have keys := (presented.keys_eq_nil_iff plain).mpr (Or.inl noKey)
  rw [Layout.identity, keys, List.isEmpty_nil, if_pos rfl, List.mem_filterMap]
  constructor
  · rintro ⟨⟨name, slot⟩, mem, here⟩
    obtain ⟨child, memC, rfl, there⟩ := presented.exists_item plain mem
    refine ⟨child, memC, ?_⟩
    rw [there]
    cases slot with
    | scalar j =>
      obtain rfl := Option.some.inj here
      rfl
    | nested keys slots => cases here
  · rintro ⟨child, -, here⟩
    exact ⟨_, Keyed.mem_of_get? here, rfl⟩

/-! ## Columns that the source holds -/

/-- The row of a link's target, as far as the source holds it. -/
def Link.carried {n : Nat} (link : Link n) (t : Tuple) : Tuple := fun foreign =>
  (link.localColumn? foreign).elim .null t

/-- What a link to one row shows of scalars with these names. -/
def Link.shown (m : Model) (link : Link m.size) (names : List String) :
    Option Tuple → Except Error Json
  | none => .ok .null
  | some r => .object <$> (m.get link.target).scalarMembers r names

section

variable {lead d : Draft m} {l : Level m} {group : List Scope} {parts : List (Option Selection)}
  {columns : List Layout.Named} {field : Field m.size} {link : Link m.size}
  {held : List (String × String)} (plain : m.PlainNames) (known : l.entity ∈ m.entities)
  (presented : Presented m l.entity parts columns)
  (reads : lead.ReadsPast d.statement.row l group columns)
  (links : l.Links field link)
  (elided : elidedColumns? m link (childrenOf field.name parts.reduceOption) = some held)
  (apart : l.below field link ∉ lead.levels)

include plain known presented reads links apart

/-- What is wanted of a target that is not joined is in the columns of the source that hold it. -/
theorem exists_held_column {child : Selection} {c : String × String}
    (mem : child ∈ childrenOf field.name parts.reduceOption) (holds : link.Holds m child c) :
    ∃ i, Keyed.get? Prod.fst child.name
        (Layout.ofNamed (Layout.tails field.name columns)).slots =
          some (child.name, .scalar i) ∧
      ∀ e ∈ group, (d.statement.row e).at i = e l.tableAlias c.2 := by
  obtain ⟨-, -, wanted, w, foundW, storeW, column⟩ := holds
  have plainHere := plain l.entity known
  have plainTarget := plain _ (m.get_mem link.target)
  have name := plainHere field (Entity.mem_of_field? links.1)
  have below := presented.below plainHere plainTarget links.1 links.2
  obtain ⟨i, memT, here⟩ := below.slot_scalar plainTarget (mem_partsBelow.mpr mem) foundW storeW
  refine ⟨i, here, ?_⟩
  obtain ⟨ref, leads, value⟩ := reads _ (Layout.mem_tails.mp memT).1 (Nat.le_refl 2)
    fun n same => name.notCursor (List.cons.inj same).1
  rcases leads.of_link plainHere links.1 links.2 with
    ⟨-, -, wanted', w', column', single, foundW', storeW', local', rfl⟩ | ⟨joined, -⟩
  · rw [← (List.cons.inj single).1, foundW] at foundW'
    obtain rfl := Option.some.inj foundW'
    rw [storeW] at storeW'
    obtain rfl := FieldStore.scalar.inj storeW'
    rw [column] at local'
    rw [Option.some.inj local']
    exact value
  · exact absurd joined apart

include elided

/-- A target that is not joined is told apart by the columns that hold what is wanted of it. -/
theorem tells_held : Tells group l.tableAlias (held.map (·.2))
    (d.identity (Layout.tails field.name columns)) := by
  obtain ⟨-, -, -, each⟩ := elidedColumns?_eq_some.mp elided
  have plainTarget := plain _ (m.get_mem link.target)
  have noKey := no_key_of_elided elided
  have below := presented.below (plain l.entity known) plainTarget links.1 links.2
  have place := fun i => mem_identity plainTarget below noKey (i := i)
  apply tells_of_places
  · intro i inside
    obtain ⟨child, memC, slot⟩ := (place i).mp inside
    have wanted := mem_partsBelow.mp memC
    obtain ⟨c, memH, holds⟩ := Outcome.exists_of_mem_left each wanted
    obtain ⟨j, slot', value⟩ :=
      exists_held_column plain known presented reads links apart wanted holds
    rw [slot] at slot'
    obtain rfl := Slot.scalar.inj (Prod.mk.inj (Option.some.inj slot')).2
    exact ⟨c.2, List.mem_map_of_mem memH, value⟩
  · intro column mem
    obtain ⟨c, memH, rfl⟩ := List.mem_map.mp mem
    obtain ⟨child, wanted, holds⟩ := Outcome.exists_of_mem_right each memH
    obtain ⟨i, slot, value⟩ :=
      exists_held_column plain known presented reads links apart wanted holds
    exact ⟨i, (place i).mpr ⟨child, mem_partsBelow.mpr wanted, slot⟩, value⟩

variable {t : Tuple} (some : group ≠ []) (here : ∀ e ∈ group, e l.tableAlias = t)
include some here

theorem groups_carried : Group.groups (d.identity (Layout.tails field.name columns)) group =
    if ∀ c ∈ held, t c.2 = .null then [] else [group] := by
  have tells := tells_held plain known presented reads links elided apart
  have null : ∀ e ∈ group, ((d.identity (Layout.tails field.name columns) e).all Value.isNull =
      true ↔ ∀ c ∈ held, t c.2 = .null) := by
    intro e mem
    rw [tells.null e mem, here e mem, List.forall_mem_map]
  split
  · rename_i empty
    exact Group.groups_of_null fun e mem => (null e mem).mpr empty
  · rename_i filled
    obtain ⟨e₀, mem₀⟩ := List.exists_mem_of_ne_nil _ some
    refine Group.groups_of_same (fun e mem => (tells.same e mem e₀ mem₀).mpr fun c _ => ?_) some ?_
    · rw [here e mem, here e₀ mem₀]
    · rw [Bool.eq_false_iff]
      exact fun all => filled ((null e₀ mem₀).mp all)

theorem members_carried : members m (m.get link.target) (group.map d.statement.row)
    (Layout.ofNamed (Layout.tails field.name columns)).slots =
    (m.get link.target).scalarMembers (link.carried t)
      (wantedNames (childrenOf field.name parts.reduceOption)) := by
  obtain ⟨-, -, -, each⟩ := elidedColumns?_eq_some.mp elided
  have plainTarget := plain _ (m.get_mem link.target)
  have below := presented.below (plain l.entity known) plainTarget links.1 links.2
  rw [wantedNames, ← reduceOption_partsBelow link, ← below.slot_names plainTarget]
  apply members_scalars
  intro name slot mem
  obtain ⟨child, memC, rfl, slotIs⟩ := below.exists_item plainTarget mem
  have wanted := mem_partsBelow.mp memC
  obtain ⟨c, -, holds⟩ := Outcome.exists_of_mem_left each wanted
  obtain ⟨i, slot', value⟩ :=
    exists_held_column plain known presented reads links apart wanted holds
  rw [slotIs] at slot'
  obtain ⟨-, -, f, s, found, store, column⟩ := holds
  refine ⟨f, s, i, found, store, (Prod.mk.inj (Option.some.inj slot')).2,
    shared_eq some fun e memE => ?_⟩
  rw [value e memE, here e memE, Link.carried, column]
  rfl

/-- A link whose target is not joined shows the row that its source carries, unless all that is
wanted of it is null. -/
theorem member_carried : member m l.entity field (group.map d.statement.row)
      (.nested (Layout.ofNamed (Layout.tails field.name columns)).keys
        (Layout.ofNamed (Layout.tails field.name columns)).slots) =
    link.shown m (wantedNames (childrenOf field.name parts.reduceOption))
      (if ∀ c ∈ held, t c.2 = .null then none else Option.some (link.carried t)) := by
  have groups := groups_carried plain known presented reads links elided apart some here
  have members := members_carried plain known presented reads links elided apart some here
  obtain ⟨-, -, one, -⟩ := elidedColumns?_eq_some.mp elided
  rw [member_link links.2]
  by_cases empty : ∀ c ∈ held, t c.2 = .null
  · simp only [bind, Except.bind, groups_rows, groups, one, if_pos empty]
    rfl
  · simp only [bind, Except.bind, groups_rows, groups, one, if_neg empty, List.map_singleton,
      List.mapM_cons, members, Link.shown]
    cases (m.get link.target).scalarMembers (link.carried t)
      (wantedNames (childrenOf field.name parts.reduceOption)) <;> rfl

end

/-! ## The row behind the link -/

/-- Whether a row whose key is whole has exactly one row behind a link, with identical values. -/
def Link.Refers (db : Database) (m : Model) (link : Link m.size) (t : Tuple) : Prop :=
  (∀ c ∈ link.columns, t c ≠ .null) →
    ∃ r, (∀ r', link.Behind db m t r' ↔ r' = r) ∧ ∀ p ∈ link.keyPairs, t p.1 = r p.2

section

variable {s : Schema} {db : Database} {table : Table} {field : Field m.size} {link : Link m.size}
  {children : List Selection} {held : List (String × String)} {t : Tuple}

/-- So it is for a link to one row over a key of the source, in a database that honours the
schema and in which keys are identical. -/
theorem Link.Mirrors.refers (mirrors : link.Mirrors s m table field) (keysRefer : db.KeysRefer s)
    (agree : db.ReferencesAgree s) (uniques : db.UniquesHold s)
    (primary : db.PrimaryKeysHold s) (declared : table ∈ s.tables) (owner : link.owner = true)
    (one : link.cardinality.toMany = false) (row : t ∈ db.rows table.name) :
    link.Refers db m t := by
  intro whole
  obtain ⟨r, behind⟩ := mirrors.exists_behind keysRefer declared owner row whole
  refine ⟨r, fun r' => ⟨fun other => ?_, fun same => same ▸ behind⟩, fun p pair => ?_⟩
  · exact mirrors.behind_eq uniques primary (mirrors.owned owner).1 one other behind
  · exact mirrors.local_eq declared agree owner row behind pair

/-- Behind such a link there is at most one row. -/
theorem Link.Refers.exists_behind (refers : link.Refers db m t)
    (mirrors : link.Mirrors s m table field) :
    ∃ behind, ∀ r, link.Behind db m t r ↔ behind = some r := by
  by_cases whole : ∀ c ∈ link.columns, t c ≠ .null
  · obtain ⟨r, one, -⟩ := refers whole
    exact ⟨some r, fun r' => (one r').trans (by rw [Option.some.injEq, eq_comm])⟩
  · push Not at whole
    obtain ⟨c, mem, null⟩ := whole
    refine ⟨none, fun r => ⟨fun behind => ?_, fun same => by cases same⟩⟩
    exact absurd behind (mirrors.not_behind_of_mem mem null)

variable {behind : Option Tuple} (behindIff : ∀ r, link.Behind db m t r ↔ behind = some r)
include behindIff

/-- The row that the source carries is shown as the one behind the link exactly where nothing in
the key is null, or all that is wanted of it. -/
theorem Link.Refers.shown_carried_iff (refers : link.Refers db m t)
    (mirrors : link.Mirrors s m table field)
    (elided : elidedColumns? m link children = some held) (wanted : children ≠ []) :
    link.shown m (wantedNames children)
        (if ∀ c ∈ held, t c.2 = .null then none else some (link.carried t)) =
      link.shown m (wantedNames children) behind ↔
    (∀ c ∈ link.columns, t c ≠ .null) ∨ ∀ c ∈ held, t c.2 = .null := by
  obtain ⟨-, -, -, each⟩ := elidedColumns?_eq_some.mp elided
  have column := fun c => held_mem_columns elided (c := c)
  have nothing : ∀ c ∈ link.columns, t c = .null → behind = none := by
    intro c mem null
    cases here : behind with
    | none => rfl
    | some r => exact absurd ((behindIff r).mpr here) (mirrors.not_behind_of_mem mem null)
  obtain ⟨child, memC⟩ := List.exists_mem_of_ne_nil _ wanted
  obtain ⟨c, memH, -⟩ := Outcome.exists_of_mem_left each memC
  constructor
  · intro same
    by_contra neither
    obtain ⟨broken, filled⟩ := not_or.mp neither
    push Not at broken
    obtain ⟨c', mem', null⟩ := broken
    -- nothing is behind the link, and yet there is an object or an error
    rw [if_neg filled, nothing c' mem' null, shown, shown] at same
    cases read : (m.get link.target).scalarMembers (link.carried t) (wantedNames children) with
    | error _ =>
      rw [read] at same
      cases same
    | ok _ =>
      rw [read] at same
      cases same
  · rintro (whole | empty)
    · obtain ⟨r, one, agree⟩ := refers whole
      rw [(behindIff r).mp ((one r).mpr rfl),
        if_neg fun empty => whole c.2 (column c memH) (empty c memH), shown, shown,
        Entity.scalarMembers_congr]
      intro name mem f w found store
      rw [wantedNames, List.mem_eraseDups] at mem
      obtain ⟨child, memC, rfl⟩ := List.mem_map.mp mem
      obtain ⟨c', -, -, -, f', w', found', store', local'⟩ := Outcome.exists_of_mem_left each memC
      rw [found] at found'
      obtain rfl := Option.some.inj found'
      rw [store] at store'
      obtain rfl := FieldStore.scalar.inj store'
      rw [carried, local']
      exact agree _ (Link.pair_mem local')
    · rw [if_pos empty, nothing c.2 (column c memH) (empty c memH)]

/-- What a link shows of the row behind it is what the model says. -/
theorem Link.showsField_of_shown {e : Entity m.size} {name : String}
    (found : e.field? name = some field) (store : field.store = .link link)
    (one : link.cardinality.toMany = false) {v : Json}
    (ok : link.shown m (wantedNames children) behind = .ok v) :
    ShowsField db m e t children name v := by
  cases behind with
  | none =>
    cases ok
    refine .absent found store one fun r there => ?_
    cases (behindIff r).mp there
  | some r =>
    obtain ⟨node, read, rfl⟩ := Outcome.map_eq_ok.mp ok
    have one' : ∀ r', link.Behind db m t r' ↔ r' = r := fun r' =>
      (behindIff r').trans (by rw [Option.some.injEq, eq_comm])
    exact .one found store one one' (Entity.shows_scalarMembers read)

end

end EntityGraph
