import EntityGraph.Proofs.Tree.Carried
import EntityGraph.Proofs.Tree.Shaped
import EntityGraph.Proofs.Tree.Visited

/-!
# Links that find at most one row

Reading a result fails for want of unity only at a node that has more than one group of rows
behind a link to one. Where what is crossed has keys there is no such node: the groups behind a
link that is joined are those of the rows that the link leads to, and behind a link that is not
joined there is at most the row that the source carries.
-/
namespace EntityGraph

open Nesting

variable {m : Model}

/-- Whether an error is about anything but links and lookups that find too much. -/
def Error.NotCardinality (e : Error) : Prop :=
  ∀ fault, e ≠ .cardinality fault

theorem Error.notCardinality_of_validation {e : Error} (invalid : e.isValidation = true) :
    e.NotCardinality := by
  rintro fault rfl
  cases invalid

theorem Error.notCardinality_codec (fault : CodecFault) : (Error.codec fault).NotCardinality :=
  fun _ same => by cases same

namespace Nesting

open Error

variable {entity : Entity m.size} {items : List Selection} {result : RowSet}

/-- Whether no node that is read from a result has more than one group of rows behind a link to
one. -/
def Single (m : Model) (entity : Entity m.size) (items : List Selection) (result : RowSet) :
    Prop :=
  ∀ (l : Level m) (wanted : List Selection) (rows : List Row) (slots : List (String × Slot)),
    Visits m entity items result l wanted rows slots →
    ∀ (field : Field m.size) (link : Link m.size) (keys : List Nat)
      (below : List (String × Slot)), l.Links field link →
      (field.name, .nested keys below) ∈ slots → link.cardinality.toMany = false →
      (Group.groups (valuesAt (Layout.identity keys below)) rows).length ≤ 1

mutual

/-- A slot of a node that is read from a result can be read without too much behind a link. -/
theorem only_member_of_single (single : Single m entity items result) :
    (slot : Slot) → ∀ {l : Level m} {wanted : List Selection} {rows : List Row}
      {slots : List (String × Slot)},
    Visits m entity items result l wanted rows slots → ∀ field : Field m.size,
    l.entity.field? field.name = some field → (field.name, slot) ∈ slots →
    Only NotCardinality (member m l.entity field rows slot)
  | .scalar column => by
    intro visits field found mem e failed
    cases store : field.store with
    | scalar s =>
      rw [member_scalar store] at failed
      obtain ⟨fault, rfl⟩ := Scalar.codec_of_decode failed
      exact notCardinality_codec fault
    | link link => exact notCardinality_of_validation (invalid_of_member_scalar store failed)
  | .nested keys below => by
    intro visits field found mem
    cases store : field.store with
    | scalar s => exact fun e failed =>
        notCardinality_of_validation (invalid_of_member_nested store failed)
    | link link =>
      have links : Level.Links _ field link := ⟨found, store⟩
      refine only_member_link store (fun group inside => ?_) fun one several => ?_
      · exact only_members_of_single single below (.behind visits links mem inside) fun _ => id
      · exact absurd (single _ _ _ _ visits field link keys below links mem one) (by omega)

theorem only_members_of_single (single : Single m entity items result) :
    (rest : List (String × Slot)) → ∀ {l : Level m} {wanted : List Selection} {rows : List Row}
      {slots : List (String × Slot)},
    Visits m entity items result l wanted rows slots → (∀ s ∈ rest, s ∈ slots) →
    Only NotCardinality (members m l.entity rows rest)
  | [] => by
    intro visits sub
    rw [members_nil]
    exact .ok _
  | (name, slot) :: rest => by
    intro visits sub
    cases found : Entity.field? _ name with
    | none => exact fun e failed =>
        notCardinality_of_validation (invalid_of_members_cons found failed)
    | some field =>
      obtain rfl := Entity.name_of_field? found
      refine only_members_cons found ?_ ?_
      · exact only_member_of_single single slot visits field found (sub _ List.mem_cons_self)
      · exact only_members_of_single single rest visits fun s mem =>
          sub s (List.mem_cons_of_mem _ mem)

end

/-- Then no record fails for finding too much. -/
theorem only_records_of_single (single : Single m entity items result) :
    ∀ outcome ∈ records m entity result, Only NotCardinality outcome := by
  intro outcome mem
  obtain ⟨group, memG, rfl⟩ := List.mem_map.mp mem
  exact only_record (only_members_of_single single _ (.root rfl memG) fun _ => id)

end Nesting

/-! ## Rows behind a link to one -/

section

variable {s : Schema} {db : Database} {entity : Entity m.size} {selection : List Selection}
  {cursor : List ColumnRef} {lead d : Draft m} {picked : List Tuple} {answer : List Scope}

theorem length_le_one_of_nodup {α : Type} {xs : List α} (distinct : xs.Nodup)
    (same : ∀ a ∈ xs, ∀ b ∈ xs, a = b) : xs.length ≤ 1 := by
  match xs, distinct, same with
  | [], _, _ => exact Nat.zero_le 1
  | [_], _, _ => exact Nat.le_refl 1
  | a :: b :: _, distinct, same =>
    have equal := same a List.mem_cons_self b (List.mem_cons_of_mem a List.mem_cons_self)
    exact absurd (equal ▸ List.mem_cons_self) (List.nodup_cons.mp distinct).1

/-- Where the rows at a level are one row, those that are joined behind a link to one are one or
none. -/
theorem Draft.Settled.length_groups_joined (settled : d.Settled s db entity picked)
    (uniques : db.UniquesHold s) (grows : lead.Grows d) {l : Level m} (has : d.Has l)
    {group : List Scope} (inside : ∀ e ∈ group, e ∈ d.combined db picked) {t : Tuple}
    (here : ∀ e ∈ group, e l.tableAlias = t) {parts : List (Option Selection)}
    {columns : List Layout.Named} (presented : Presented m l.entity parts columns)
    (reads : lead.ReadsPast d.statement.row l group columns) {name : String}
    {field : Field m.size} {link : Link m.size} (found : l.entity.field? name = some field)
    (store : field.store = .link link) (one : link.cardinality.toMany = false)
    (key : none ∈ partsBelow m link name parts) (target : db.HasKey (m.get link.target))
    (pivot : ∀ p, link.pivot = some p → db.HasKey (m.get p.source)) :
    (Group.groups (d.identity (Layout.tails name columns)) group).length ≤ 1 := by
  have links : l.Links field link := ⟨(Entity.name_of_field? found).symm ▸ found, store⟩
  obtain ⟨joined, firsts, fall⟩ :=
    settled.exists_rowGroups grows has inside presented reads found store key target
  obtain ⟨table, -, mirror⟩ := settled.grown.link_mirrors settled.known settled.mirrors has links
  have behind : ∀ t' ∈ firsts.map (· (l.below field link).tableAlias), link.Behind db m t t' := by
    intro t' mem
    obtain ⟨row, e, memE, rfl⟩ := (fall.stands t').mp mem
    rcases settled.grown.behind_or_missing settled.plain settled.known settled.mirrors
      settled.distinct (inside e memE) has links joined with behind | ⟨-, missing, -⟩
    · exact here e memE ▸ behind
    · rw [missing] at row
      exact absurd row target.missing_notMem
  have same : ∀ a ∈ firsts.map (· (l.below field link).tableAlias),
      ∀ b ∈ firsts.map (· (l.below field link).tableAlias), a = b := fun a memA b memB =>
    mirror.behind_unique settled.mirrors uniques one target pivot (behind a memA) (behind b memB)
  rw [fall.groups, List.length_map, ← List.length_map (· (l.below field link).tableAlias)]
  exact length_le_one_of_nodup fall.distinct same

/-- Where what is crossed has keys, no link to one of a node that is read from an answer has more
than one group of rows behind it. -/
theorem Draft.Settled.single (settled : d.Settled s db entity picked)
    (drafted : d.Drafted entity selection cursor)
    (inside : ∀ e ∈ answer, e ∈ d.combined db picked) {statement : Statement}
    (projections : statement.projections = d.statement.projections)
    (uniques : db.UniquesHold s) (keyed : db.HasKeys entity (entity.wanted selection)) :
    Single m entity (entity.wanted selection) (statement.rowSet answer) := by
  intro l wanted rows slots visits field link keys below links memSlot one
  obtain ⟨lead, grows, levels, parts, columns, group, node⟩ :=
    settled.exists_visited drafted inside projections visits
  have known := visits.place.entity_mem settled.known
  rw [node.slots] at memSlot
  obtain ⟨item, memI, name, slotIs⟩ :=
    node.presented.exists_item (settled.plain l.entity known) memSlot
  have mentioned : item ∈ wanted := node.wanted ▸ List.reduceOption_mem_iff.mpr memI
  obtain ⟨slot, own⟩ := node.exists_slot settled.plain known links mentioned name
  rw [node.slots, slotIs] at slot
  obtain ⟨rfl, rfl⟩ := Slot.nested.inj (Prod.mk.inj (Option.some.inj slot)).2
  obtain ⟨has, t, -, here⟩ := node.stands keyed own
  rw [node.rows, groups_rows, List.length_map]
  by_cases key : none ∈ partsBelow m link field.name parts
  · obtain ⟨other, memO, sameName, crossed⟩ := exists_crossing key
    have crossing : other ∈ wanted := node.wanted ▸ List.reduceOption_mem_iff.mpr memO
    have found : l.entity.field? other.name = some field := sameName ▸ links.1
    have target := keyed _ (Or.inr (visits.place.crosses (.target crossing found links.2 crossed)))
    exact settled.length_groups_joined uniques grows has (fun e mem => inside e (node.inside e mem))
      here node.presented node.reads links.1 links.2 one key target fun p onward =>
        keyed _ (Or.inr (visits.place.crosses (.pivot crossing found links.2 onward)))
  · obtain ⟨held, elided⟩ := exists_elided_of_no_key key memI name
    have apart : l.below field link ∉ lead.levels := fun joined =>
      visits.place.below_notMem settled.plain settled.known links (node.wanted ▸ elided)
        ((levels _).mp joined)
    rw [groups_carried settled.plain known node.presented node.reads links elided apart
      node.nonempty here]
    split <;> simp

end

end EntityGraph
