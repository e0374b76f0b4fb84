import EntityGraph.Proofs.Tree.Forest
import EntityGraph.Proofs.Tree.Shaped

/-!
# Reading what trees have fanned out to

One branch of a tree is repeated for everything that stands beside it. Read in its own columns
alone, and each tuple of values only where it is first seen, the product of the branches shows
the rows of the one branch; grouping looks no further than that. So every level finds its own
rows again, however often they were repeated, and the nodes behind a link in their order.
-/
namespace EntityGraph

open Nesting

variable {m : Model}

/-! ## Parts of rows -/

namespace Slot

mutual

/-- The rows of a branch are in the columns of its slot. -/
theorem columns_parts : ∀ (slot : Slot) (branch : Branch),
    ∀ part ∈ slot.parts branch, part.map Prod.fst ⊆ slot.columns
  | .scalar column, .value v => by
    intro part mem
    rw [parts, List.mem_singleton] at mem
    rw [mem, columns]
    exact List.Subset.refl _
  | .nested keys slots, .nodes children => by
    intro part mem
    rw [parts] at mem
    split at mem
    · rw [List.mem_singleton.mp mem]
      exact List.nil_subset _
    · obtain ⟨child, -, here⟩ := List.mem_flatMap.mp mem
      obtain ⟨rest, inside, rfl⟩ := List.mem_map.mp here
      rw [columns, List.map_append]
      refine List.append_subset.mpr ⟨fun c memC => ?_, fun c memC => ?_⟩
      · obtain ⟨cell, memCell, rfl⟩ := List.mem_map.mp memC
        exact List.mem_append_left _ (List.of_mem_zip memCell).1
      · exact List.mem_append_right _ (columns_allParts slots child.branches rest inside memC)
  | .scalar _, .nodes _ => by simp [parts]
  | .nested _ _, .value _ => by simp [parts]

theorem columns_allParts : ∀ (slots : List (String × Slot)) (branches : List Branch),
    ∀ part ∈ allParts slots branches, part.map Prod.fst ⊆ allColumns slots
  | (name, slot) :: rest, branch :: more => by
    intro part mem
    rw [allParts] at mem
    obtain ⟨first, memFirst, here⟩ := List.mem_flatMap.mp mem
    obtain ⟨others, memOthers, rfl⟩ := List.mem_map.mp here
    rw [allColumns, List.map_append]
    exact List.append_subset.mpr
      ⟨fun c memC => List.mem_append_left _ (columns_parts slot branch first memFirst memC),
        fun c memC => List.mem_append_right _ (columns_allParts rest more others memOthers memC)⟩
  | [], _ => by simp [allParts]
  | _ :: _, [] => by simp [allParts]

end

mutual

/-- Every branch has a row. -/
theorem parts_ne_nil : ∀ (slot : Slot) (branch : Branch), slot.parts branch ≠ []
  | .scalar column, .value v => by simp [parts]
  | .nested keys slots, .nodes [] => by simp [parts]
  | .nested keys slots, .nodes (child :: children) => by
    have first := allParts_ne_nil slots child.branches
    simp [parts, first]
  | .scalar _, .nodes _ => by simp [parts]
  | .nested _ _, .value _ => by simp [parts]

theorem allParts_ne_nil : ∀ (slots : List (String × Slot)) (branches : List Branch),
    allParts slots branches ≠ []
  | (name, slot) :: rest, branch :: more => by
    rw [allParts]
    obtain ⟨part, some⟩ := List.exists_mem_of_ne_nil _ (parts_ne_nil slot branch)
    obtain ⟨others, some'⟩ := List.exists_mem_of_ne_nil _ (allParts_ne_nil rest more)
    exact List.ne_nil_of_mem
      (List.mem_flatMap.mpr ⟨part, some, List.mem_map_of_mem some'⟩)
  | [], _ => by simp [allParts]
  | _ :: _, [] => by simp [allParts]

end

section

variable {name : String} {slot : Slot} {rest : List (String × Slot)} {branch : Branch}
  {more : List Branch} (apart : slot.columns.Disjoint (allColumns rest))
include apart

/-- In the columns of its first slot a product shows the rows of the first branch. -/
theorem seen_first : ((allParts ((name, slot) :: rest) (branch :: more)).map
      (Cells.values slot.columns)).eraseDups =
    ((slot.parts branch).map (Cells.values slot.columns)).eraseDups := by
  rw [allParts, List.map_flatMap]
  refine FirstSeen.eraseDups_flatMap (fun part _ => ?_) fun part mem vs seen => ?_
  · simpa using allParts_ne_nil rest more
  · obtain ⟨whole, inside, rfl⟩ := List.mem_map.mp seen
    obtain ⟨others, memOthers, rfl⟩ := List.mem_map.mp inside
    exact Cells.values_append_left fun c memC here =>
      apart memC (columns_allParts rest more others memOthers here)

/-- In the other columns it shows the rows of the other branches. -/
theorem seen_rest : ((allParts ((name, slot) :: rest) (branch :: more)).map
      (Cells.values (allColumns rest))).eraseDups =
    ((allParts rest more).map (Cells.values (allColumns rest))).eraseDups := by
  have each : ∀ part ∈ slot.parts branch, ((allParts rest more).map (part ++ ·)).map
      (Cells.values (allColumns rest)) = (allParts rest more).map
        (Cells.values (allColumns rest)) := by
    intro part mem
    rw [List.map_map]
    refine List.map_congr_left fun others _ => ?_
    exact Cells.values_append_right fun c memC here =>
      apart (columns_parts slot branch part mem here) memC
  rw [allParts, List.map_flatMap, List.flatMap_congr each]
  exact FirstSeen.eraseDups_flatMap_const (parts_ne_nil slot branch) _

end

end Slot

/-! ## Rows that show parts -/

/-- The values of fewer columns among those of more. -/
def pick (columns fewer : List Nat) (vs : List Value) : List Value :=
  fewer.map fun c => vs[columns.idxOf c]?.getD .null

theorem pick_map {columns fewer : List Nat} (sub : fewer ⊆ columns) (value : Nat → Value) :
    pick columns fewer (columns.map value) = fewer.map value := by
  refine List.map_congr_left fun c mem => ?_
  have inside : columns.idxOf c < columns.length := List.idxOf_lt_length_iff.mpr (sub mem)
  simp [inside]

/-- Whether rows, read in some columns, show what parts of rows do, in the order in which it is
first seen. -/
def SeenAlike (columns : List Nat) (rows : List Row) (parts : List Cells) : Prop :=
  (rows.map (valuesAt columns)).eraseDups = (parts.map (Cells.values columns)).eraseDups

namespace SeenAlike

variable {columns fewer : List Nat} {rows : List Row} {parts parts' : List Cells}
  (alike : SeenAlike columns rows parts)
include alike

theorem trans (seen : (parts.map (Cells.values columns)).eraseDups =
    (parts'.map (Cells.values columns)).eraseDups) : SeenAlike columns rows parts' :=
  Eq.trans alike seen

/-- They do so in fewer columns. -/
theorem mono (sub : fewer ⊆ columns) : SeenAlike fewer rows parts := by
  have rowsPicked : rows.map (valuesAt fewer) =
      (rows.map (valuesAt columns)).map (pick columns fewer) := by
    rw [List.map_map]
    exact List.map_congr_left fun row _ => (pick_map sub row.at).symm
  have partsPicked : parts.map (Cells.values fewer) =
      (parts.map (Cells.values columns)).map (pick columns fewer) := by
    rw [List.map_map]
    exact List.map_congr_left fun part _ => (pick_map sub (Cells.valueAt part)).symm
  rw [SeenAlike, rowsPicked, partsPicked, ← FirstSeen.eraseDups_map_eraseDups, alike,
    FirstSeen.eraseDups_map_eraseDups]

/-- So do their groups, one by one. -/
theorem groups (sub : fewer ⊆ columns) : List.Forall₂ (SeenAlike columns)
    (Group.groups (valuesAt fewer) rows) (Group.groups (Cells.values fewer) parts) := by
  have ofRows : valuesAt fewer = pick columns fewer ∘ valuesAt columns :=
    funext fun row => (pick_map sub row.at).symm
  have ofParts : Cells.values fewer = pick columns fewer ∘ Cells.values columns :=
    funext fun part => (pick_map sub (Cells.valueAt part)).symm
  rw [ofRows, ofParts]
  exact Group.groups_of_seen _ alike

/-- What all parts say of a column, the rows share. -/
theorem shared_eq {column : Nat} (inside : column ∈ columns) {v : Value} (some : parts ≠ [])
    (all : ∀ part ∈ parts, Cells.valueAt part column = v) : shared rows column = v := by
  have one := alike.mono (List.cons_subset.mpr ⟨inside, List.nil_subset _⟩)
  have said : (parts.map (Cells.values [column])).eraseDups = [[v]] := by
    have same : parts.map (Cells.values [column]) = parts.flatMap fun _ => [[v]] := by
      rw [← List.map_eq_flatMap]
      exact List.map_congr_left fun part mem => by
        rw [Cells.values, List.map_singleton, all part mem]
    rw [same, FirstSeen.eraseDups_flatMap_const some]
    rfl
  rw [SeenAlike, said] at one
  cases rows with
  | nil => cases one
  | cons row rows =>
    rw [List.map_cons, FirstSeen.eraseDups_cons] at one
    exact (List.cons.inj (List.cons.inj one).1).1

end SeenAlike

/-! ## Nodes behind a link -/

/-- What a link shows for nodes, of which there is at most one behind a link to one. -/
theorem Nesting.linked_nodes {entity field : String} {toMany : Bool}
    {nodes : List (List (String × Json))} (one : toMany = false → nodes.length ≤ 1) :
    linked entity field toMany (nodes.map Json.object) = .ok
      (if toMany then .array (nodes.map Json.object) else nodes.head?.elim .null Json.object) := by
  cases toMany with
  | true => rfl
  | false =>
    match nodes, one rfl with
    | [], _ => rfl
    | [node], _ => rfl

namespace Slot

variable {keys : List Nat} {slots : List (String × Slot)} {children : List Tree}
  {rows : List Row}

/-- The groups of rows that show the nodes behind a link are, one by one, rows that show what
stands at the slots of each. -/
theorem seen_groups (distinct : (keys ++ allColumns slots).Nodup)
    (bears : (Slot.nested keys slots).Bears (.nodes children))
    (alike : SeenAlike (keys ++ allColumns slots) rows
      ((Slot.nested keys slots).parts (.nodes children))) :
    List.Forall₂ (fun group child => SeenAlike (allColumns slots) group
        (allParts slots (Tree.branches child)))
      (Group.groups (valuesAt keys) rows) children := by
  obtain ⟨distinctChildren, each⟩ := bears
  obtain ⟨distinctKeys, -, apart⟩ := List.nodup_append'.mp distinct
  have groups := alike.groups (List.subset_append_left keys (allColumns slots))
  by_cases none : children = []
  · have null : Group.groups (Cells.values keys) [([] : Cells)] = [] :=
      Group.groups_of_null fun part mem => by
        rw [List.mem_singleton.mp mem]
        exact Cells.values_nil keys
    simp only [parts, none, List.isEmpty_nil, if_true, null] at groups
    rw [none, List.forall₂_nil_right_iff.mp groups]
    exact .nil
  · have several : (Slot.nested keys slots).parts (.nodes children) =
        children.flatMap (Tree.parts keys slots) := by
      rw [parts, if_neg (by simpa using none)]
      rfl
    have apartRows : Group.groups (Cells.values keys) (children.flatMap (Tree.parts keys slots)) =
        children.map (Tree.parts keys slots) := by
      refine Group.groups_flatMap (fun child mem part here => ?_) (fun child _ => ?_)
        (fun child mem => (each child mem).2.1) distinctChildren
      · obtain ⟨rest, -, rfl⟩ := List.mem_map.mp here
        exact Cells.values_zip distinctKeys (each child mem).1
      · simpa [Tree.parts] using allParts_ne_nil slots child.branches
    rw [several, apartRows, List.forall₂_map_right_iff] at groups
    refine groups.imp fun group child seen => ?_
    refine (seen.mono (List.subset_append_right keys _)).trans ?_
    -- the key stands in columns of its own
    rw [Tree.parts, List.map_map]
    congr 1
    refine List.map_congr_left fun part _ => Cells.values_append_right fun c mem here => ?_
    obtain ⟨cell, memCell, rfl⟩ := List.mem_map.mp here
    exact apart (List.of_mem_zip memCell).1 mem

/-- Where every group that shows what stands at the slots of a node is read, groups that do so one
by one are read in their order. -/
theorem exists_nodes {target : Entity m.size} {groups : List (List Row)}
    (seen : List.Forall₂ (fun group child => SeenAlike (allColumns slots) group
      (allParts slots (Tree.branches child))) groups children)
    (each : ∀ child ∈ children, ∀ group,
      SeenAlike (allColumns slots) group (allParts slots child.branches) →
      ∃ node, members m target group slots = .ok node ∧
        AllShownAs m target slots child.branches node) :
    ∃ nodes, List.Forall₂ (fun group node => members m target group slots = .ok node)
        groups nodes ∧
      List.Forall₂ (fun child node => AllShownAs m target slots (Tree.branches child) node)
        children nodes := by
  induction seen with
  | nil => exact ⟨[], .nil, .nil⟩
  | cons here _ ih =>
    obtain ⟨⟨node, read, shown⟩, others⟩ := List.forall_mem_cons.mp each
      |>.imp_left fun first => first _ here
    obtain ⟨nodes, readRest, shownRest⟩ := ih others
    exact ⟨node :: nodes, .cons read readRest, .cons shown shownRest⟩

mutual

/-- What is read at a slot is what the branch is shown as. -/
theorem exists_member (m : Model) : ∀ (slot : Slot) (branch : Branch) (e : Entity m.size)
    (name : String) (rows : List Row), slot.Bears branch → slot.Keyed → slot.Names m e name →
    slot.Readable m e name branch → slot.columns.Nodup →
    SeenAlike slot.columns rows (slot.parts branch) →
    ∃ f doc, e.field? name = some f ∧ member m e f rows slot = .ok doc ∧
      slot.ShownAs m e name branch doc
  | .scalar column, .value v, e, name, rows, _, _, names, readable, _, alike => by
    obtain ⟨f, s, found, store⟩ := names
    obtain ⟨doc, decoded⟩ := readable f s found store
    have own : shared rows column = v :=
      alike.shared_eq List.mem_cons_self (parts_ne_nil _ _) (by simp [parts, Cells.valueAt])
    exact ⟨f, doc, found, (member_scalar store column).trans (own ▸ decoded), f, s, found,
      store, decoded⟩
  | .nested keys slots, .nodes children, e, name, rows, bears, keyed, names, readable, distinct,
      alike => by
    obtain ⟨some, keyedBelow⟩ := keyed
    obtain ⟨f, link, found, store, namesBelow⟩ := names
    obtain ⟨one, readableBelow⟩ := readable f link found store
    have groups := seen_groups distinct bears alike
    have distinctBelow := (List.nodup_append'.mp distinct).2.1
    obtain ⟨nodes, read, shown⟩ := exists_nodes groups fun child mem group seen =>
      exists_members m slots child.branches (m.get link.target) group (bears.2 child mem).2.2
        keyedBelow namesBelow (readableBelow child mem) distinctBelow seen
    have single : link.cardinality.toMany = false → nodes.length ≤ 1 := fun toOne =>
      shown.length_eq ▸ one toOne
    refine ⟨f, _, found, (member_link_eq_ok store).mpr ⟨nodes.map Json.object, ?_,
      linked_nodes single⟩, f, link, nodes, found, store, shown, rfl⟩
    rw [Layout.identity_of_keys some]
    exact Outcome.mapM_eq_ok.mpr ((List.forall₂_map_right_iff).mpr
      (read.imp fun group node ok => Outcome.map_eq_ok.mpr ⟨node, ok, rfl⟩))
  | .scalar _, .nodes _, _, _, _, bears, _, _, _, _, _ => bears.elim
  | .nested _ _, .value _, _, _, _, bears, _, _, _, _, _ => bears.elim

/-- What is read of a node is what the node is shown as. -/
theorem exists_members (m : Model) : ∀ (slots : List (String × Slot)) (branches : List Branch)
    (e : Entity m.size) (rows : List Row), AllBear slots branches → AllKeyed slots →
    AllName m e slots → AllReadable m e slots branches → (allColumns slots).Nodup →
    SeenAlike (allColumns slots) rows (allParts slots branches) →
    ∃ node, members m e rows slots = .ok node ∧ AllShownAs m e slots branches node
  | [], [], _, _, _, _, _, _, _, _ => ⟨[], rfl, trivial⟩
  | (name, slot) :: rest, branch :: more, e, rows, bears, keyed, names, readable, distinct,
      alike => by
    obtain ⟨distinctFirst, distinctRest, apart⟩ := List.nodup_append'.mp distinct
    obtain ⟨f, doc, found, read, shown⟩ := exists_member m slot branch e name rows bears.1 keyed.1
      names.1 readable.1 distinctFirst
      ((alike.mono (List.subset_append_left _ _)).trans (seen_first apart))
    obtain ⟨node, readRest, shownRest⟩ := exists_members m rest more e rows bears.2 keyed.2
      names.2 readable.2 distinctRest
      ((alike.mono (List.subset_append_right _ _)).trans (seen_rest apart))
    exact ⟨(name, doc) :: node, members_cons_eq_ok.mpr ⟨f, doc, node, found, read, readRest, rfl⟩,
      rfl, shown, shownRest⟩
  | [], _ :: _, _, _, bears, _, _, _, _, _ => bears.elim
  | _ :: _, [], _, _, bears, _, _, _, _, _ => bears.elim

end

end Slot

end EntityGraph
