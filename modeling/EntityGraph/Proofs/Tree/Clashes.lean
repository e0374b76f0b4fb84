import EntityGraph.Proofs.Tree.Placed
import EntityGraph.Proofs.Tree.Shaped

/-!
# Clashes behind links to one row

What tells rows apart at a level is their identity there, and one that is null throughout tells
of no row. Rows clash if two of them have different identities behind a link to one. This is the
only thing that keeps rows from being read whose values have documents: without a clash there is
a node, and what it shows behind a link is what the identities there stand for.
-/
namespace EntityGraph

open Nesting

/-- What is made of the values of steps that succeed. -/
theorem Outcome.exists_of_map {α β γ ε : Type} {f : α → Except ε β} {g : β → γ} {xs : List α}
    {zs : List γ} (each : List.Forall₂ (fun x z => g <$> f x = .ok z) xs zs) :
    ∃ ys, List.Forall₂ (fun x y => f x = .ok y) xs ys ∧ zs = ys.map g := by
  induction each with
  | nil => exact ⟨[], .nil, rfl⟩
  | cons first _ ih =>
    obtain ⟨y, here, rfl⟩ := map_eq_ok.mp first
    obtain ⟨ys, others, rfl⟩ := ih
    exact ⟨y :: ys, .cons here others, rfl⟩

/-- Whether an error is about a link to one that has found more. -/
def Error.OfLink (err : Error) : Prop :=
  ∃ owner field n, 1 < n ∧ err = .cardinality (.link owner field n)

variable {m : Model} {rows : List Row}

namespace Nesting

/-- The identities that rows have in some columns, as they are first seen. -/
def identities (columns : List Nat) (rows : List Row) : List (List Value) :=
  (rows.map (valuesAt columns)).eraseDups.filter fun k => !k.all Value.isNull

/-- The rows with an identity. -/
def having (columns : List Nat) (rows : List Row) (k : List Value) : List Row :=
  rows.filter fun row => valuesAt columns row == k

variable {columns : List Nat} {k : List Value}

theorem groups_eq_having (columns : List Nat) (rows : List Row) :
    Group.groups (valuesAt columns) rows =
      (identities columns rows).map (having columns rows) :=
  Group.groups_eq _ _

theorem mem_identities : k ∈ identities columns rows ↔
    (∃ row ∈ rows, valuesAt columns row = k) ∧ k.all Value.isNull = false := by
  simp [identities]

theorem identities_nodup (columns : List Nat) (rows : List Row) :
    (identities columns rows).Nodup :=
  (FirstSeen.nodup_eraseDups _).filter _

end Nesting

/-- What a link shows of the nodes behind it: to many all of them; to one the only node, or null if
there is none. -/
inductive Link.Presents (link : Link m.size) : List (List (String × Json)) → Json → Prop where
  | many (nodes : List (List (String × Json))) : link.cardinality.toMany = true →
      Presents link nodes (.array (nodes.map Json.object))
  | none : link.cardinality.toMany = false → Presents link [] .null
  | one (node : List (String × Json)) : link.cardinality.toMany = false →
      Presents link [node] (.object node)

namespace Slot

mutual

/-- Whether a slot has a document for each of these rows. -/
def Decodes (m : Model) (e : Entity m.size) (name : String) (rows : List Row) : Slot → Prop
  | .scalar column => ∀ f s, e.field? name = some f → f.store = .scalar s →
    ∀ row ∈ rows, ∃ doc, s.decode (row.at column) = .ok doc
  | .nested _ slots => ∀ f link, e.field? name = some f → f.store = .link link →
    AllDecode m (m.get link.target) rows slots

def AllDecode (m : Model) (e : Entity m.size) (rows : List Row) : List (String × Slot) → Prop
  | [] => True
  | (name, slot) :: rest => slot.Decodes m e name rows ∧ AllDecode m e rows rest

end

section

variable {m : Model} {e : Entity m.size} {name : String} {rows : List Row} {f : Field m.size}
  (found : e.field? name = some f)
include found

theorem Decodes.value {s : Scalar} (store : f.store = .scalar s) {column : Nat}
    (each : ∀ row ∈ rows, (s.decode (row.at column)).toBool = true) :
    (Slot.scalar column).Decodes m e name rows := by
  intro f' s' found' store' row mem
  obtain rfl := Option.some.inj (found.symm.trans found')
  obtain rfl := FieldStore.scalar.inj (store.symm.trans store')
  exact Outcome.toBool_eq_true.mp (each row mem)

theorem Decodes.nodes {link : Link m.size} (store : f.store = .link link) {keys : List Nat}
    {slots : List (String × Slot)} (below : AllDecode m (m.get link.target) rows slots) :
    (Slot.nested keys slots).Decodes m e name rows := by
  intro f' link' found' store'
  obtain rfl := Option.some.inj (found.symm.trans found')
  obtain rfl := FieldStore.link.inj (store.symm.trans store')
  exact below

end

/-- Whether rows clash: at a level behind a link to one there are two with different identities,
neither of them null throughout; or rows of one identity clash further down. -/
inductive Clash (m : Model) : Entity m.size → List (String × Slot) → List Row → Prop where
  | here {e : Entity m.size} {slots : List (String × Slot)} {rows : List Row} {name : String}
      {keys : List Nat} {below : List (String × Slot)} {f : Field m.size} {link : Link m.size}
      {a b : Row} : (name, .nested keys below) ∈ slots → e.field? name = some f →
      f.store = .link link → link.cardinality.toMany = false → a ∈ rows → b ∈ rows →
      (valuesAt (Layout.identity keys below) a).all Value.isNull = false →
      (valuesAt (Layout.identity keys below) b).all Value.isNull = false →
      valuesAt (Layout.identity keys below) a ≠ valuesAt (Layout.identity keys below) b →
      Clash m e slots rows
  | behind {e : Entity m.size} {slots : List (String × Slot)} {rows : List Row} {name : String}
      {keys : List Nat} {below : List (String × Slot)} {f : Field m.size} {link : Link m.size}
      {k : List Value} : (name, .nested keys below) ∈ slots → e.field? name = some f →
      f.store = .link link → k ∈ identities (Layout.identity keys below) rows →
      Clash m (m.get link.target) below (having (Layout.identity keys below) rows k) →
      Clash m e slots rows

mutual

/-- What a slot comes to for the rows of a node: the document of what the first of them holds, or
what a link shows of the nodes for the identities behind it. -/
def ReadAs (m : Model) (e : Entity m.size) (name : String) : Slot → List Row → Json → Prop
  | .scalar column, rows, doc => ∃ f s, e.field? name = some f ∧ f.store = .scalar s ∧
    s.decode (shared rows column) = .ok doc
  | .nested keys slots, rows, doc => ∃ f link nodes, e.field? name = some f ∧
    f.store = .link link ∧
    List.Forall₂ (fun k node => AllReadAs m (m.get link.target) slots
        (having (Layout.identity keys slots) rows k) node)
      (identities (Layout.identity keys slots) rows) nodes ∧
    link.Presents nodes doc

/-- What a node has for its rows: a member for each of the slots, in their order. -/
def AllReadAs (m : Model) (e : Entity m.size) :
    List (String × Slot) → List Row → List (String × Json) → Prop
  | [], _, [] => True
  | (name, slot) :: rest, rows, member :: others =>
    member.1 = name ∧ slot.ReadAs m e name rows member.2 ∧ AllReadAs m e rest rows others
  | _, _, _ => False

end

mutual

/-- Documents stay when there are fewer rows. -/
theorem Decodes.mono {name : String} {fewer : List Row} (sub : fewer ⊆ rows) :
    (slot : Slot) → ∀ {e : Entity m.size}, slot.Decodes m e name rows →
      slot.Decodes m e name fewer
  | .scalar _ => fun decodes f s found store row mem => decodes f s found store row (sub mem)
  | .nested _ slots => fun decodes f link found store =>
    AllDecode.mono sub slots (decodes f link found store)

theorem AllDecode.mono {fewer : List Row} (sub : fewer ⊆ rows) :
    (slots : List (String × Slot)) → ∀ {e : Entity m.size}, AllDecode m e rows slots →
      AllDecode m e fewer slots
  | [] => fun _ => trivial
  | (_, slot) :: rest => fun ⟨here, others⟩ =>
    ⟨Decodes.mono sub slot here, AllDecode.mono sub rest others⟩

end

/-- A clash stays when there are more slots. -/
theorem Clash.mono {e : Entity m.size} {slots more : List (String × Slot)} (sub : slots ⊆ more)
    (clash : Clash m e slots rows) : Clash m e more rows := by
  cases clash with
  | here mem found store one memA memB filledA filledB apart =>
    exact .here (sub mem) found store one memA memB filledA filledB apart
  | behind mem found store seen deeper => exact .behind (sub mem) found store seen deeper

/-- Rows clash where there are several identities behind a link to one. -/
theorem Clash.of_several {e : Entity m.size} {slots : List (String × Slot)} {name : String}
    {keys : List Nat} {below : List (String × Slot)} {f : Field m.size} {link : Link m.size}
    (mem : (name, .nested keys below) ∈ slots) (found : e.field? name = some f)
    (store : f.store = .link link) (one : link.cardinality.toMany = false)
    (several : 1 < (identities (Layout.identity keys below) rows).length) :
    Clash m e slots rows := by
  have distinct := identities_nodup (Layout.identity keys below) rows
  match whole : identities (Layout.identity keys below) rows, several with
  | a :: b :: rest, _ =>
    obtain ⟨⟨row, memR, rfl⟩, filled⟩ :=
      mem_identities.mp (whole ▸ List.mem_cons_self)
    obtain ⟨⟨row', memR', rfl⟩, filled'⟩ :=
      mem_identities.mp (whole ▸ List.mem_cons_of_mem _ List.mem_cons_self)
    rw [whole] at distinct
    refine .here mem found store one memR memR' filled filled' fun same => ?_
    exact (List.nodup_cons.mp distinct).1 (same ▸ List.mem_cons_self)

theorem Names.exists_field {e : Entity m.size} {name : String} {slot : Slot}
    (named : slot.Names m e name) : ∃ f, e.field? name = some f := by
  cases slot with
  | scalar _ =>
    obtain ⟨f, s, found, -⟩ := named
    exact ⟨f, found⟩
  | nested _ _ =>
    obtain ⟨f, link, found, -⟩ := named
    exact ⟨f, found⟩

end Slot

namespace Nesting

open Slot Error

/-- A link to one has nothing to show for two nodes. -/
theorem presents_of_linked {owner field : String} {link : Link m.size}
    {nodes : List (List (String × Json))} {doc : Json}
    (shown : linked owner field link.cardinality.toMany (nodes.map Json.object) = .ok doc) :
    link.Presents nodes doc := by
  obtain ⟨many, rfl⟩ | ⟨one, ⟨none, rfl⟩ | single⟩ := linked_eq_ok.mp shown
  · exact .many nodes many
  · obtain rfl := List.map_eq_nil_iff.mp none
    exact .none one
  · obtain ⟨node, rfl, rfl⟩ := List.map_eq_singleton_iff.mp single
    exact .one node one

/-- Nodes behind a link that have been read are those of its identities. -/
theorem exists_nodes {e : Entity m.size} {f : Field m.size}
    {link : Link m.size} (store : f.store = .link link) {keys : List Nat}
    {slots : List (String × Slot)} {doc : Json}
    (read : member m e f rows (.nested keys slots) = .ok doc) :
    ∃ nodes, List.Forall₂ (fun k node => members m (m.get link.target)
        (having (Layout.identity keys slots) rows k) slots = .ok node)
      (identities (Layout.identity keys slots) rows) nodes ∧ link.Presents nodes doc := by
  obtain ⟨children, readAll, shown⟩ := (member_link_eq_ok store).mp read
  rw [groups_eq_having, Outcome.mapM_eq_ok, List.forall₂_map_left_iff] at readAll
  obtain ⟨nodes, readNodes, rfl⟩ := Outcome.exists_of_map readAll
  exact ⟨nodes, readNodes, presents_of_linked shown⟩

mutual

/-- A member that has been read is what its slot comes to. -/
theorem readAs_of_member : (slot : Slot) → ∀ {e : Entity m.size} {rows : List Row}
    {f : Field m.size} {name : String} {doc : Json}, e.field? name = some f →
    slot.Names m e name → member m e f rows slot = .ok doc → slot.ReadAs m e name rows doc
  | .scalar column => by
    intro found named read
    obtain ⟨f', s, found', store⟩ := named
    obtain rfl := Option.some.inj (found.symm.trans found')
    exact ⟨_, s, found, store, (member_scalar store column).symm.trans read⟩
  | .nested keys slots => by
    intro found named read
    obtain ⟨f', link, found', store, behind⟩ := named
    obtain rfl := Option.some.inj (found.symm.trans found')
    obtain ⟨nodes, readNodes, presents⟩ := exists_nodes store read
    exact ⟨_, link, nodes, found, store,
      readNodes.imp fun _ _ readNode => readAs_of_members slots behind readNode, presents⟩

theorem readAs_of_members : (slots : List (String × Slot)) → ∀ {e : Entity m.size}
    {rows : List Row} {node : List (String × Json)}, AllName m e slots →
    members m e rows slots = .ok node → AllReadAs m e slots rows node
  | [] => by
    intro named read
    rw [members_nil] at read
    obtain rfl := Except.ok.inj read
    trivial
  | (name, slot) :: rest => by
    intro named read
    obtain ⟨f, doc, others, found, here, more, rfl⟩ := members_cons_eq_ok.mp read
    exact ⟨rfl, readAs_of_member slot found named.1 here, readAs_of_members rest named.2 more⟩

end

/-- Rows that clash are not read. -/
theorem members_ne_ok {e : Entity m.size} {slots : List (String × Slot)}
    (clash : Clash m e slots rows) (node : List (String × Json)) :
    members m e rows slots ≠ .ok node := by
  induction clash generalizing node with
  | here mem found store one memA memB filledA filledB apart =>
    intro ok
    obtain ⟨f', doc, found', read, -⟩ := (exists_of_members_eq_ok ok).2 _ _ mem
    obtain rfl := Option.some.inj (found.symm.trans found')
    obtain ⟨nodes, readNodes, presents⟩ := exists_nodes store read
    have seenA := mem_identities.mpr ⟨⟨_, memA, rfl⟩, filledA⟩
    have seenB := mem_identities.mpr ⟨⟨_, memB, rfl⟩, filledB⟩
    cases presents with
    | many _ many => exact Bool.noConfusion (one.symm.trans many)
    | none _ =>
      rw [List.forall₂_nil_right_iff.mp readNodes] at seenA
      cases seenA
    | one _ _ =>
      obtain ⟨k, only⟩ := List.length_eq_one_iff.mp readNodes.length_eq
      rw [only, List.mem_singleton] at seenA seenB
      exact apart (seenA.trans seenB.symm)
  | behind mem found store seen _ ih =>
    intro ok
    obtain ⟨f', doc, found', read, -⟩ := (exists_of_members_eq_ok ok).2 _ _ mem
    obtain rfl := Option.some.inj (found.symm.trans found')
    obtain ⟨nodes, readNodes, -⟩ := exists_nodes store read
    obtain ⟨node, -, readNode⟩ := Outcome.exists_of_mem_left readNodes seen
    exact ih node readNode

mutual

/-- Where there are documents, a member that is not read is behind a clash. -/
theorem only_member_of_clash : (slot : Slot) → ∀ {e : Entity m.size} {rows : List Row}
    {f : Field m.size} {name : String}, e.field? name = some f → slot.Names m e name →
    slot.Decodes m e name rows →
    Only (fun err => OfLink err ∧ Clash m e [(name, slot)] rows) (member m e f rows slot)
  | .scalar column => by
    intro found named decodes
    obtain ⟨f', s, found', store⟩ := named
    obtain rfl := Option.some.inj (found.symm.trans found')
    rw [member_scalar store]
    refine only_shared fun row mem => ?_
    obtain ⟨doc, decoded⟩ := decodes _ s found store row mem
    rw [decoded]
    exact .ok doc
  | .nested keys slots => by
    intro found named decodes
    obtain ⟨f', link, found', store, behind⟩ := named
    obtain rfl := Option.some.inj (found.symm.trans found')
    refine only_member_link store (fun group memG => ?_) fun one several => ?_
    · rw [groups_eq_having] at memG
      obtain ⟨k, seen, rfl⟩ := List.mem_map.mp memG
      intro err failed
      obtain ⟨ofLink, clash⟩ := only_members_of_clash slots behind
        (AllDecode.mono (List.filter_subset_self _) slots (decodes _ link found store)) err failed
      exact ⟨ofLink, .behind List.mem_cons_self found store seen clash⟩
    · refine ⟨⟨_, _, _, several, rfl⟩, ?_⟩
      rw [groups_eq_having, List.length_map] at several
      exact .of_several List.mem_cons_self found store one several

theorem only_members_of_clash : (slots : List (String × Slot)) → ∀ {e : Entity m.size}
    {rows : List Row}, AllName m e slots → AllDecode m e rows slots →
    Only (fun err => OfLink err ∧ Clash m e slots rows) (members m e rows slots)
  | [] => by
    intro _ _
    rw [members_nil]
    exact .ok _
  | (name, slot) :: rest => by
    intro named decodes
    obtain ⟨f, found⟩ := named.1.exists_field
    refine only_members_cons found (fun err failed => ?_) fun err failed => ?_
    · obtain ⟨ofLink, clash⟩ := only_member_of_clash slot found named.1 decodes.1 err failed
      exact ⟨ofLink, clash.mono (List.cons_subset_cons _ (List.nil_subset _))⟩
    · obtain ⟨ofLink, clash⟩ := only_members_of_clash rest named.2 decodes.2 err failed
      exact ⟨ofLink, clash.mono (List.subset_cons_self _ _)⟩

end

section

variable {e : Entity m.size} {slots : List (String × Slot)} (named : AllName m e slots)
  (decodes : AllDecode m e rows slots)
include named decodes

/-- Rows are not read exactly if they clash, and the fault is a link to one then. -/
theorem failed_iff_clash : (∃ err, OfLink err ∧ members m e rows slots = .error err) ↔
    Clash m e slots rows := by
  constructor
  · rintro ⟨err, -, failed⟩
    exact (only_members_of_clash slots named decodes err failed).2
  · intro clash
    cases outcome : members m e rows slots with
    | error err =>
      exact ⟨err, (only_members_of_clash slots named decodes err outcome).1, rfl⟩
    | ok node => exact absurd outcome (members_ne_ok clash node)

/-- Rows that do not clash are read, as what the slots come to for them. -/
theorem exists_node_of_no_clash (none : ¬ Clash m e slots rows) :
    ∃ node, members m e rows slots = .ok node ∧ AllReadAs m e slots rows node := by
  cases outcome : members m e rows slots with
  | error err => exact absurd (only_members_of_clash slots named decodes err outcome).2 none
  | ok node => exact ⟨node, rfl, readAs_of_members slots named outcome⟩

end

end Nesting

end EntityGraph
