import EntityGraph.Proofs.Tree.Carried
import EntityGraph.Proofs.Tree.Places

/-!
# Nodes of a result

A link is crossed or its source holds all that is wanted of its target. Where it is crossed,
there is one group for every row behind it. Where it is not, its source carries the row behind it,
or nothing but null.
-/
namespace EntityGraph

open Nesting

variable {m : Model} {s : Schema} {db : Database} {entity : Entity m.size} {rows : List Tuple}
  {lead d : Draft m}

/-! ## Links that are crossed -/

section

variable {l : Level m} {group : List Scope} {field : Field m.size} {link : Link m.size}
  {parts : List (Option Selection)} {columns : List Layout.Named} {name : String}
  {row : Scope → Row}

/-- What is past the names of a level below a link is past those of the level before it. -/
theorem Draft.ReadsPast.below (plain : ∀ f ∈ l.entity.fields, FieldName f.name)
    (reads : d.ReadsPast row l group columns)
    (found : l.entity.field? name = some field) (store : field.store = .link link) :
    d.ReadsPast row (l.below field link) group (Layout.tails name columns) := by
  intro c mem past _
  obtain ⟨whole, -⟩ := Layout.mem_tails.mp mem
  have longer : 2 ≤ (name :: c.1).length := Nat.le_succ_of_le past
  have three : ∀ n, name :: c.1 ≠ [Path.cursorSegment, n] := by
    intro n same
    rw [(List.cons.inj same).2] at past
    exact absurd past (by simp)
  obtain ⟨ref, leads, value⟩ := reads _ whole longer three
  rcases leads.of_link plain found store with
    ⟨-, -, wanted, w, column, single, -⟩ | ⟨-, deeper⟩
  · rw [single] at past
    exact absurd past (by simp)
  · exact ⟨ref, deeper, value⟩

/-- A link that shows its key has been joined. -/
theorem Draft.below_mem (plain : m.PlainNames) (known : l.entity ∈ m.entities)
    (presented : Presented m l.entity parts columns) (reads : d.ReadsPast row l group columns)
    (found : l.entity.field? name = some field) (store : field.store = .link link)
    (key : none ∈ partsBelow m link name parts)
    (some : (m.get link.target).primaryKey ≠ []) : l.below field link ∈ d.levels := by
  have plainHere := plain l.entity known
  have below := presented.below plainHere (plain _ (m.get_mem _)) found store
  obtain ⟨⟨f, w⟩, memK⟩ := List.exists_mem_of_ne_nil _ some
  obtain ⟨i, memC⟩ := below.exists_key_column key memK
  obtain ⟨whole, -⟩ := Layout.mem_tails.mp memC
  have three : ∀ n, [name, Path.keySegment, f.name] ≠ [Path.cursorSegment, n] := by
    intro n same
    exact absurd (congrArg List.length same) (by simp)
  obtain ⟨ref, leads, -⟩ := reads _ whole (by simp) three
  rcases leads.of_link plainHere found store with
    ⟨-, -, wanted, w', column, same, -⟩ | ⟨joined, -⟩
  · exact absurd (congrArg List.length same) (by simp)
  · exact joined

/-- What has been joined behind a link is told apart by its key: there is one group for each row
that stands there. -/
theorem Draft.Settled.exists_rowGroups (settled : d.Settled s db entity rows)
    (grows : lead.Grows d) (has : d.Has l)
    (inside : ∀ e ∈ group, e ∈ d.combined db rows)
    (presented : Presented m l.entity parts columns)
    (reads : lead.ReadsPast d.statement.row l group columns)
    (found : l.entity.field? name = some field) (store : field.store = .link link)
    (key : none ∈ partsBelow m link name parts) (target : db.HasKey (m.get link.target)) :
    l.below field link ∈ d.levels ∧ ∃ firsts,
      d.RowGroups db (l.below field link) (Layout.tails name columns) group firsts := by
  have known := settled.grown.entity_mem settled.known has
  have plainHere := settled.plain l.entity known
  have plainTarget := settled.plain _ (m.get_mem link.target)
  have joined := grows.mem_levels
    (Draft.below_mem settled.plain known presented reads found store key target.some)
  have below := presented.below plainHere plainTarget found store
  obtain ⟨targetTable, targetMirror⟩ := settled.mirrors _ (m.get_mem link.target)
  have tells := @tells_key m lead d (l.below field link) group _ _ plainTarget targetMirror.distinct
    below (reads.below plainHere found store) key target.some
  refine ⟨joined, Draft.exists_rowGroups tells target fun e memE => ?_⟩
  rcases settled.grown.row_or_missing settled.known settled.mirrors settled.stored
    settled.distinct (inside e memE) (Or.inr joined) with row | ⟨-, missing⟩
  · exact Or.inl row
  · exact Or.inr missing

end

namespace Draft.Sound

variable (sound : d.Sound s db entity rows) {l : Level m} {t : Tuple} {group : List Scope}
  (stands : d.Stands db rows l t group) {field : Field m.size} {link : Link m.size}
  {parts : List (Option Selection)} {columns : List Layout.Named} {item : Selection}
include sound stands

/-- Rows behind a crossed link are told apart by their keys: there is one group for each. -/
theorem groups_below (grows : lead.Grows d) (presented : Presented m l.entity parts columns)
    (reads : lead.ReadsPast d.statement.row l group columns)
    (found : l.entity.field? item.name = some field)
    (store : field.store = .link link) (key : none ∈ partsBelow m link item.name parts)
    (target : db.HasKey (m.get link.target)) : l.below field link ∈ d.levels ∧ ∃ firsts,
      d.RowGroups db (l.below field link) (Layout.tails item.name columns) group firsts ∧
      ∀ t', t' ∈ firsts.map (· (l.below field link).tableAlias) ↔ link.Behind db m t t' := by
  have links : l.Links field link := ⟨(Entity.name_of_field? found).symm ▸ found, store⟩
  obtain ⟨inside, firsts, fall⟩ :=
    sound.settled.exists_rowGroups grows stands.has stands.inside presented reads found store key
      target
  refine ⟨inside, firsts, fall, fun t' => ?_⟩
  rw [fall.stands]
  constructor
  · rintro ⟨row, e, memE, rfl⟩
    rcases sound.behind_or_missing stands links inside memE with behind | ⟨missing, -⟩
    · exact behind
    · rw [missing] at row
      exact absurd row target.missing_notMem
  · intro behind
    exact ⟨behind.1, sound.exists_below stands links inside behind⟩

/-- A crossed link shows a node for every row behind it, if nodes of those rows are read. -/
theorem member_crossed (grows : lead.Grows d) (agrees : db.ReferencesAgree s)
    (uniques : db.UniquesHold s) (presented : Presented m l.entity parts columns)
    (reads : lead.Reads d.statement.row l group columns)
    (keyed : ∀ e', Selection.Crosses m l.entity parts.reduceOption e' → db.HasKey e')
    (mem : some item ∈ parts) (found : l.entity.field? item.name = some field)
    (store : field.store = .link link) (key : none ∈ partsBelow m link item.name parts)
    (deeper : ∀ t' group', d.Stands db rows (l.below field link) t' group' →
      lead.Reads d.statement.row (l.below field link) group'
        (Layout.tails item.name columns) → ∃ node,
        members m (m.get link.target) (group'.map d.statement.row)
          (Layout.ofNamed (Layout.tails item.name columns)).slots = .ok node ∧
        Shows db m (m.get link.target) t' (childrenOf item.name parts.reduceOption) node) :
    ∃ f slot v, l.entity.field? item.name = some f ∧
      Keyed.get? Prod.fst item.name (Layout.ofNamed columns).slots = some (item.name, slot) ∧
      member m l.entity f (group.map d.statement.row) slot = .ok v ∧
      ShowsField db m l.entity t (childrenOf item.name parts.reduceOption) item.name v := by
  have plainHere := sound.plainAt stands.has
  have plainTarget := sound.plain _ (m.get_mem link.target)
  have links : l.Links field link := ⟨(Entity.name_of_field? found).symm ▸ found, store⟩
  obtain ⟨other, memOther, sameName, crossed⟩ := exists_crossing key
  have foundOther : l.entity.field? other.name = some field := sameName ▸ found
  have target : db.HasKey (m.get link.target) :=
    keyed _ (.target (List.reduceOption_mem_iff.mpr memOther) foundOther store crossed)
  have pivot : ∀ p, link.pivot = some p → db.HasKey (m.get p.source) := fun p same =>
    keyed _ (.pivot (List.reduceOption_mem_iff.mpr mem) found store same)
  obtain ⟨inside, firsts, fall, behindIff⟩ :=
    sound.groups_below stands grows presented reads.past found store key target
  have readsBelow := sound.reads_below stands agrees reads found store inside
  -- the node for a row is read from the group in which the row stands
  have nodes : ∀ f ∈ firsts, ∃ node, members m (m.get link.target)
      ((d.sameAs (Layout.tails item.name columns) group f).map d.statement.row)
        (Layout.ofNamed (Layout.tails item.name columns)).slots = .ok node ∧
      Shows db m (m.get link.target) (f (l.below field link).tableAlias)
        (childrenOf item.name parts.reduceOption) node := by
    intro f memF
    have behind := (behindIff _).mp (List.mem_map_of_mem memF)
    have standsBelow := sound.stands_below stands links inside behind (fall.members f memF)
    exact deeper _ _ standsBelow
      (readsBelow.mono fun e memE => ((fall.members f memF e).mp memE).1)
  choose! nodeOf read using nodes
  obtain ⟨node, told⟩ := FirstSeen.exists_factor [] nodeOf fall.distinct
  have shown : ∀ r ∈ firsts.map (· (l.below field link).tableAlias),
      Shows db m (m.get link.target) r (childrenOf item.name parts.reduceOption) (node r) := by
    intro r memR
    obtain ⟨f, memF, rfl⟩ := List.mem_map.mp memR
    rw [told f memF]
    exact (read f memF).2
  have unique : link.cardinality.toMany = false →
      ∀ a b, link.Behind db m t a → link.Behind db m t b → a = b := fun one a b ra rb => by
    obtain ⟨table, mirror, linkMirror⟩ :=
      sound.grown.link_mirrors sound.known sound.mirrors stands.has links
    exact linkMirror.behind_unique sound.mirrors uniques one target pivot ra rb
  obtain ⟨v, shownAs, shows⟩ := exists_linked found store fall.distinct behindIff unique node shown
  have slot := presented.slot_link plainHere plainTarget found store mem
  refine ⟨field, _, v, found, slot, (member_link_eq_ok store).mpr ⟨_, ?_, shownAs⟩, shows⟩
  rw [groups_rows, fall.groups, Outcome.mapM_eq_ok, List.map_map, List.map_map,
    List.forall₂_map_left_iff, List.forall₂_map_right_iff, List.forall₂_same]
  intro f memF
  exact Outcome.map_eq_ok.mpr ⟨_, (read f memF).1, by simp only [Function.comp, told f memF]⟩

/-! ## Links that are not crossed -/

/-- Where keys find one identical row or are null throughout, a whole key does. -/
theorem refers (agrees : db.ReferencesAgree s) (links : l.Links field link)
    (owner : link.owner = true) : link.Refers db m t ∧
      ((∀ c ∈ link.columns, t c ≠ .null) ∨ ∀ c ∈ link.columns, t c = .null) := by
  obtain ⟨table, mirror, linkMirror⟩ :=
    sound.grown.link_mirrors sound.known sound.mirrors stands.has links
  have row := stands.row
  rw [← mirror.table_name] at row
  obtain ⟨c₀, mem₀⟩ := List.exists_mem_of_ne_nil _ linkMirror.some
  rcases linkMirror.owned_references sound.references mirror.table_mem owner row with
    null | ⟨r, one⟩
  · exact ⟨fun whole => absurd (null c₀ mem₀) (whole c₀ mem₀), Or.inr null⟩
  · have behind := (one r).mpr rfl
    refine ⟨fun _ => ⟨r, one, fun p pair => ?_⟩, Or.inl fun c mem null => ?_⟩
    · exact linkMirror.local_eq mirror.table_mem agrees owner row behind pair
    · exact linkMirror.not_behind_of_mem mem null behind

/-- A link that is not crossed shows what its source carries, which is what the model says. -/
theorem member_held (agrees : db.ReferencesAgree s) (decodable : db.Decodable m)
    (presented : Presented m l.entity parts columns)
    (reads : lead.ReadsPast d.statement.row l group columns) (mem : some item ∈ parts)
    (found : l.entity.field? item.name = some field) (store : field.store = .link link)
    {held : List (String × String)}
    (elided : elidedColumns? m link (childrenOf field.name parts.reduceOption) = some held)
    (apart : l.below field link ∉ lead.levels) :
    ∃ f slot v, l.entity.field? item.name = some f ∧
      Keyed.get? Prod.fst item.name (Layout.ofNamed columns).slots = some (item.name, slot) ∧
      member m l.entity f (group.map d.statement.row) slot = .ok v ∧
      ShowsField db m l.entity t (childrenOf item.name parts.reduceOption) item.name v := by
  have known := sound.grown.entity_mem sound.known stands.has
  have plainHere := sound.plainAt stands.has
  have plainTarget := sound.plain _ (m.get_mem link.target)
  have name := Entity.name_of_field? found
  have links : l.Links field link := ⟨name.symm ▸ found, store⟩
  have slot := presented.slot_link plainHere plainTarget found store mem
  have carried := member_carried sound.plain known presented reads links elided apart stands.some
    stands.here
  obtain ⟨table, -, linkMirror⟩ :=
    sound.grown.link_mirrors sound.known sound.mirrors stands.has links
  obtain ⟨owner, -, one, each⟩ := elidedColumns?_eq_some.mp elided
  obtain ⟨refers, full⟩ := sound.refers stands agrees links owner
  obtain ⟨behind, behindIff⟩ := refers.exists_behind linkMirror
  have wanted : childrenOf field.name parts.reduceOption ≠ [] := by
    obtain ⟨-, some, -⟩ := (presented.fits item mem).of_link found store
    obtain ⟨child, inside⟩ := List.exists_mem_of_ne_nil _ some
    exact List.ne_nil_of_mem (mem_childrenOf.mpr
      ⟨item, List.reduceOption_mem_iff.mpr mem, name.symm, inside⟩)
  have same := (refers.shown_carried_iff behindIff linkMirror elided wanted).mpr
    (full.imp_right fun null c inside => null c.2 (held_mem_columns elided inside))
  have scalars : ∀ name ∈ wantedNames (childrenOf field.name parts.reduceOption), ∃ f w,
      (m.get link.target).field? name = some f ∧ f.store = .scalar w := by
    intro name mem
    obtain ⟨child, inside, rfl⟩ := List.mem_map.mp (List.mem_eraseDups.mp mem)
    obtain ⟨c, -, -, -, f, w, found, store, -⟩ := Outcome.exists_of_mem_left each inside
    exact ⟨f, w, found, store⟩
  obtain ⟨v, read⟩ : ∃ v, link.shown m (wantedNames (childrenOf field.name parts.reduceOption))
      behind = .ok v := by
    cases here : behind with
    | none => exact ⟨.null, rfl⟩
    | some r =>
      obtain ⟨node, ok⟩ := Entity.exists_scalarMembers decodable (m.get_mem link.target)
        ((behindIff r).mpr here).1 scalars
      exact ⟨.object node, Outcome.map_eq_ok.mpr ⟨node, ok, rfl⟩⟩
  refine ⟨field, _, v, found, slot, ?_, ?_⟩
  · rw [← name, carried, same, read]
  · rw [← name]
    exact Link.showsField_of_shown behindIff links.1 store one read

/-! ## All of a node -/

omit stands in
/-- The rows for a node show what the model says of the row that stands there. -/
theorem members_shows {selection : List Selection} (grows : lead.Grows d)
    (levels : ∀ x, x ∈ lead.levels ↔ x ∈ Selection.allLevels m (Level.ofRoot entity) selection)
    (agrees : db.ReferencesAgree s) (uniques : db.UniquesHold s) (decodable : db.Decodable m)
    (keyed : ∀ e', Selection.Crosses m entity (entity.wanted selection) e' → db.HasKey e')
    (n : Nat) {l : Level m} {t : Tuple} {group : List Scope} {parts : List (Option Selection)}
    {columns : List Layout.Named} (short : ∀ c ∈ columns, c.1.length ≤ n)
    (stands : d.Stands db rows l t group)
    (place : Selection.At m (Level.ofRoot entity) (entity.wanted selection) l parts.reduceOption)
    (presented : Presented m l.entity parts columns)
    (reads : lead.Reads d.statement.row l group columns) :
    ∃ node, members m l.entity (group.map d.statement.row) (Layout.ofNamed columns).slots =
      .ok node ∧ Shows db m l.entity t parts.reduceOption node := by
  induction n using Nat.strongRecOn generalizing l t group parts columns with
  | ind n ih =>
    have plainHere := sound.plainAt stands.has
    apply shows_of_members plainHere presented
    intro item mem
    have fits := presented.fits item mem
    cases fits with
    | @scalar e name field w found store =>
      apply member_of_scalar plainHere presented mem found store
      · intro i memC
        apply shared_eq stands.some
        intro e memE
        have single : ∀ n, [name] ≠ [Path.cursorSegment, n] := fun n same =>
          absurd (congrArg List.length same) (by simp)
        obtain ⟨ref, leads, value⟩ := reads _ memC single
        obtain ⟨field', w', found', store', rfl⟩ := leads.of_scalar
        rw [found] at found'
        obtain rfl := Option.some.inj found'
        rw [store] at store'
        obtain rfl := FieldStore.scalar.inj store'
        rw [value e memE, Scope.reading, stands.here e memE]
      · exact decodable _ (sound.grown.entity_mem sound.known stands.has) field w
          (Entity.mem_scalars.mpr ⟨Entity.mem_of_field? found, store⟩) t stands.row
    | @link e name field link children found store some each =>
      obtain rfl := Entity.name_of_field? found
      have links : l.Links field link := ⟨found, store⟩
      by_cases key : none ∈ partsBelow m link field.name parts
      · apply sound.member_crossed stands grows agrees uniques presented reads
          (fun e' here => keyed e' (place.crosses here)) mem found store key
        intro t' group' standsBelow readsBelow
        have positive := presented.length_pos plainHere mem short
        rw [← reduceOption_partsBelow link]
        refine ih (n - 1) (by omega) (Layout.length_tails short) standsBelow ?_
          (presented.below plainHere (sound.plain _ (m.get_mem _)) found store) readsBelow
        rw [reduceOption_partsBelow]
        exact place.behind links
      · obtain ⟨held, elided⟩ := exists_elided_of_no_key key mem rfl
        exact sound.member_held stands agrees decodable presented reads.past mem found store elided
          fun joined =>
            place.below_notMem sound.plain sound.known links elided ((levels _).mp joined)

end Draft.Sound

end EntityGraph
