import Mathlib.Data.List.ReduceOption
import EntityGraph.Proofs.Draft.Columns
import EntityGraph.Proofs.Tree.Layout

/-!
# The layout of a selection

A level shows the parts of a selection: its key, where the level has been joined for the
selection, and the items that are wanted of it. The layout of their columns has a slot for
every item that is wanted, in the order in which they are first mentioned, and behind a link
the layout of all that is wanted below it, however often the link has been mentioned.
-/
namespace EntityGraph

variable {m : Model}

/-- The names of the columns for the key of a level or for an item. -/
def partNames (m : Model) (e : Entity m.size) : Option Selection → List (List String)
  | none => e.keyNames
  | some item => item.names m e

/-- What is wanted of the target of a link that has been mentioned once. -/
def spread (m : Model) (link : Link m.size) (children : List Selection) :
    List (Option Selection) :=
  if (elidedColumns? m link children).isSome then children.map some else none :: children.map some

/-- What is wanted of the target of a link by the key of a level or by an item. -/
def partBelow (m : Model) (link : Link m.size) (name : String) :
    Option Selection → List (Option Selection)
  | none => []
  | some item => if item.name = name then spread m link item.children else []

/-- What is wanted of the target of a link, over all mentions of it. -/
def partsBelow (m : Model) (link : Link m.size) (name : String) (parts : List (Option Selection)) :
    List (Option Selection) :=
  parts.flatMap (partBelow m link name)

/-- What is wanted below a name. -/
def childrenOf (name : String) (items : List Selection) : List Selection :=
  (items.filter (·.name = name)).flatMap (·.children)

theorem mem_childrenOf {name : String} {items : List Selection} {child : Selection} :
    child ∈ childrenOf name items ↔ ∃ item ∈ items, item.name = name ∧ child ∈ item.children := by
  simp [childrenOf, and_assoc]

theorem spread_held {link : Link m.size} {children : List Selection}
    {columns : List (String × String)} (elided : elidedColumns? m link children = some columns) :
    spread m link children = children.map some := by
  simp [spread, elided]

theorem spread_joined {link : Link m.size} {children : List Selection}
    (crossed : elidedColumns? m link children = none) :
    spread m link children = none :: children.map some := by
  simp [spread, crossed]

theorem mem_of_mem_spread {link : Link m.size} {children : List Selection} {child : Selection}
    (mem : some child ∈ spread m link children) : child ∈ children := by
  unfold spread at mem
  split at mem <;> simpa using mem

theorem reduceOption_map_some (children : List Selection) :
    (children.map some).reduceOption = children := by
  rw [List.reduceOption, List.filterMap_map]
  simp

theorem reduceOption_partsBelow (link : Link m.size) (name : String)
    (parts : List (Option Selection)) :
    (partsBelow m link name parts).reduceOption = childrenOf name parts.reduceOption := by
  induction parts with
  | nil => rfl
  | cons part parts ih =>
    have step : partsBelow m link name (part :: parts) =
        partBelow m link name part ++ partsBelow m link name parts := rfl
    rw [step, List.reduceOption_append, ih]
    cases part with
    | none => simp [partBelow, childrenOf]
    | some item =>
      by_cases same : item.name = name
      · have spreadAll : (spread m link item.children).reduceOption = item.children := by
          unfold spread
          split
          · exact reduceOption_map_some _
          · rw [List.reduceOption_cons_of_none, reduceOption_map_some]
        simp [partBelow, childrenOf, same, spreadAll]
      · simp [partBelow, childrenOf, same]

theorem mem_partsBelow {link : Link m.size} {name : String} {parts : List (Option Selection)}
    {child : Selection} : some child ∈ partsBelow m link name parts ↔
      child ∈ childrenOf name parts.reduceOption := by
  rw [← List.reduceOption_mem_iff, reduceOption_partsBelow]

/-! ## Names of one item -/

section

variable {e : Entity m.size} (plain : ∀ f ∈ e.fields, FieldName f.name)

theorem Selection.Fits.ne_nil {item : Selection} (fits : item.Fits m e) :
    item.names m e ≠ [] := by
  induction fits with
  | scalar found store =>
    rw [Selection.names_scalar found store]
    exact List.cons_ne_nil _ _
  | @link e name field link children found store some each ih =>
    obtain ⟨child, rest, rfl⟩ := List.exists_cons_of_ne_nil some
    have first := ih child List.mem_cons_self
    have below : Selection.allNames m (m.get link.target) (child :: rest) ≠ [] := by
      rw [Selection.allNames]
      simp [first]
    cases elided : elidedColumns? m link (child :: rest) with
    | some columns =>
      rw [Selection.names_held found store elided]
      simpa using below
    | none =>
      rw [Selection.names_joined found store elided]
      simp [below]

/-- The names for a link are those of what is wanted of its target, below its name. -/
theorem Selection.names_link {name : String} {field : Field m.size} {link : Link m.size}
    {children : List Selection} (found : e.field? name = some field)
    (store : field.store = .link link) : Selection.names m e ⟨name, children⟩ =
      ((spread m link children).flatMap (partNames m (m.get link.target))).map (name :: ·) := by
  have items : (children.map some).flatMap (partNames m (m.get link.target)) =
      Selection.allNames m (m.get link.target) children := by
    rw [Selection.allNames_eq, List.flatMap_map]
    rfl
  cases elided : elidedColumns? m link children with
  | some columns =>
    rw [Selection.names_held found store elided, spread_held elided, items]
  | none =>
    rw [Selection.names_joined found store elided, spread_joined elided, List.flatMap_cons, items]
    rfl

include plain in
/-- All names of an item start with its own. -/
theorem Selection.Fits.headOf {item : Selection} (fits : item.Fits m e) :
    ∀ ns ∈ item.names m e, Layout.headOf ns = some item.name := by
  intro ns mem
  cases fits with
  | scalar found store =>
    rw [Selection.names_scalar found store, List.mem_singleton] at mem
    rw [mem]
    rfl
  | @link e name field link children found store _ _ =>
    rw [Selection.names_link found store] at mem
    obtain ⟨inner, -, rfl⟩ := List.mem_map.mp mem
    have sameName := Entity.name_of_field? found
    have fieldName := plain field (Entity.mem_of_field? found)
    rw [sameName] at fieldName
    cases inner with
    | nil => rfl
    | cons n rest => simp [Layout.headOf, fieldName.notKey, fieldName.notCursor]

/-- An item for a link asks for something of its target. -/
theorem Selection.Fits.of_link {item : Selection} (fits : item.Fits m e) {field : Field m.size}
    {link : Link m.size} (found : e.field? item.name = some field)
    (store : field.store = .link link) :
    item.names m e = ((spread m link item.children).flatMap
        (partNames m (m.get link.target))).map (item.name :: ·) ∧
      item.children ≠ [] ∧ ∀ child ∈ item.children, child.Fits m (m.get link.target) := by
  cases fits with
  | scalar found' store' =>
    rw [found] at found'
    obtain rfl := Option.some.inj found'
    rw [store] at store'
    cases store'
  | link found' store' some each =>
    rw [found] at found'
    obtain rfl := Option.some.inj found'
    rw [store] at store'
    obtain rfl := FieldStore.link.inj store'
    exact ⟨Selection.names_link found store, some, each⟩

omit plain e in
theorem ne_nil_of_mem_spread {link : Link m.size} {children : List Selection}
    (plain : ∀ f ∈ (m.get link.target).fields, FieldName f.name)
    (each : ∀ child ∈ children, child.Fits m (m.get link.target)) {ns : List String}
    (mem : ns ∈ (spread m link children).flatMap (partNames m (m.get link.target))) :
    ns ≠ [] := by
  obtain ⟨part, memP, here⟩ := List.mem_flatMap.mp mem
  cases part with
  | none =>
    obtain ⟨f, -, rfl⟩ := List.mem_map.mp here
    exact List.cons_ne_nil _ _
  | some child =>
    have head := (each child (mem_of_mem_spread memP)).headOf plain ns here
    rintro rfl
    cases head

end

/-- What is left of names below a first one. -/
def tailNames (name : String) : List String → Option (List String)
  | head :: next :: rest => if head = name then some (next :: rest) else none
  | _ => none

theorem map_tails (name : String) (columns : List Layout.Named) :
    (Layout.tails name columns).map Prod.fst =
      (columns.map Prod.fst).filterMap (tailNames name) := by
  rw [Layout.tails, List.map_filterMap, List.filterMap_map]
  congr 1
  funext c
  obtain ⟨_ | ⟨head, _ | ⟨next, rest⟩⟩, i⟩ := c
  · rfl
  · rfl
  · by_cases same : head = name <;> simp [Layout.tailOf?, tailNames, same]

theorem tailNames_eq_some {name : String} {ns rest : List String} :
    tailNames name ns = some rest ↔ ns = name :: rest ∧ rest ≠ [] := by
  match ns with
  | [] => simp [tailNames]
  | [n] =>
    simp only [tailNames, List.cons.injEq]
    constructor
    · intro h
      cases h
    · rintro ⟨⟨-, rfl⟩, some⟩
      exact absurd rfl some
  | head :: next :: rest' =>
    by_cases same : head = name
    · simp only [tailNames, same, if_true, Option.some.injEq, List.cons.injEq, true_and]
      constructor
      · rintro rfl
        exact ⟨rfl, by simp⟩
      · exact fun h => h.1
    · simp [tailNames, same]

/-! ## All columns of a level -/

/-- Whether columns are those for parts of a selection, together with columns of a cursor. -/
structure Presented (m : Model) (e : Entity m.size) (parts : List (Option Selection))
    (columns : List Layout.Named) : Prop where
  fits : ∀ item, some item ∈ parts → item.Fits m e
  names : ∃ extra : List (List String), (∀ ns ∈ extra, ∃ n, ns = [Path.cursorSegment, n]) ∧
    columns.map Prod.fst = (parts.flatMap (partNames m e) ++ extra).eraseDups

namespace Presented

variable {e : Entity m.size} {parts : List (Option Selection)} {columns : List Layout.Named}
  (plain : ∀ f ∈ e.fields, FieldName f.name)

theorem nodup (presented : Presented m e parts columns) : (columns.map Prod.fst).Nodup := by
  obtain ⟨extra, -, names⟩ := presented.names
  rw [names]
  exact FirstSeen.nodup_eraseDups _

/-- The name of a column is one of the key, or of an item, or of the cursor. -/
theorem name_cases (presented : Presented m e parts columns) {ns : List String}
    (mem : ns ∈ columns.map Prod.fst) : (none ∈ parts ∧ ns ∈ e.keyNames) ∨
      (∃ item, some item ∈ parts ∧ ns ∈ item.names m e) ∨ ∃ n, ns = [Path.cursorSegment, n] := by
  obtain ⟨extra, ofCursor, names⟩ := presented.names
  rw [names, List.mem_eraseDups] at mem
  rcases List.mem_append.mp mem with wanted | cursor
  · obtain ⟨part, inside, here⟩ := List.mem_flatMap.mp wanted
    cases part with
    | none => exact Or.inl ⟨inside, here⟩
    | some item => exact Or.inr (Or.inl ⟨item, inside, here⟩)
  · exact Or.inr (Or.inr (ofCursor ns cursor))

theorem exists_column (presented : Presented m e parts columns) {part : Option Selection}
    (mem : part ∈ parts) {ns : List String} (here : ns ∈ partNames m e part) :
    ∃ i, (ns, i) ∈ columns := by
  obtain ⟨extra, -, names⟩ := presented.names
  have inside : ns ∈ columns.map Prod.fst := by
    rw [names, List.mem_eraseDups]
    exact List.mem_append_left _ (List.mem_flatMap.mpr ⟨part, mem, here⟩)
  obtain ⟨⟨_, i⟩, memC, rfl⟩ := List.mem_map.mp inside
  exact ⟨i, memC⟩

theorem exists_key_column (presented : Presented m e parts columns) (key : none ∈ parts)
    {p : Field m.size × Scalar} (mem : p ∈ e.primaryKey) :
    ∃ i, ([Path.keySegment, p.1.name], i) ∈ columns :=
  presented.exists_column key (List.mem_map_of_mem mem)

include plain in
/-- The columns of the key are those that the key of the level has been wanted for. -/
theorem mem_keys (presented : Presented m e parts columns) {i : Nat} :
    i ∈ (Layout.ofNamed columns).keys ↔ none ∈ parts ∧
      ∃ p ∈ e.primaryKey, ([Path.keySegment, p.1.name], i) ∈ columns := by
  rw [Layout.ofNamed_keys, List.mem_filterMap]
  constructor
  · rintro ⟨⟨ns, j⟩, mem, here⟩
    obtain ⟨rfl, next, rest, names⟩ := Layout.keyOf?_eq_some.mp here
    rcases presented.name_cases (List.mem_map_of_mem mem) with
      ⟨key, own⟩ | ⟨item, inside, named⟩ | ⟨n, cursor⟩
    · obtain ⟨p, memP, rfl⟩ := List.mem_map.mp own
      exact ⟨key, p, memP, mem⟩
    · have head := (presented.fits item inside).headOf plain _ named
      simp [names, Layout.headOf] at head
    · rw [names] at cursor
      exact absurd (List.cons.inj cursor).1 (by decide)
  · rintro ⟨-, p, -, mem⟩
    exact ⟨_, mem, Layout.keyOf?_eq_some.mpr ⟨rfl, _, _, rfl⟩⟩

include plain in
/-- Where the key of a level is shown, it has the columns of the primary key. -/
theorem keys_eq_nil_iff (presented : Presented m e parts columns) :
    (Layout.ofNamed columns).keys = [] ↔ none ∉ parts ∨ e.primaryKey = [] := by
  rw [List.eq_nil_iff_forall_not_mem]
  constructor
  · intro noKey
    by_contra shown
    obtain ⟨key, some⟩ := not_or.mp shown
    obtain ⟨p, memP⟩ := List.exists_mem_of_ne_nil _ some
    obtain ⟨i, memC⟩ := presented.exists_key_column (not_not.mp key) memP
    exact noKey i ((presented.mem_keys plain).mpr ⟨not_not.mp key, p, memP, memC⟩)
  · intro noKey i mem
    obtain ⟨key, p, memP, -⟩ := (presented.mem_keys plain).mp mem
    rcases noKey with absent | none
    · exact absent key
    · rw [none] at memP
      cases memP

include plain in
/-- Where there is an item, some column has a name. -/
theorem length_pos (presented : Presented m e parts columns) {item : Selection}
    (mem : some item ∈ parts) {n : Nat} (short : ∀ c ∈ columns, c.1.length ≤ n) : 0 < n := by
  have fits := presented.fits item mem
  obtain ⟨ns, rest, first⟩ := List.exists_cons_of_ne_nil fits.ne_nil
  obtain ⟨i, memC⟩ := presented.exists_column mem (first ▸ List.mem_cons_self)
  have longest : ns.length ≤ n := short _ memC
  have head := fits.headOf plain ns (first ▸ List.mem_cons_self)
  cases ns with
  | nil => cases head
  | cons name ns =>
    rw [List.length_cons] at longest
    omega

include plain in
/-- There is one slot for every item, in the order of the first mentions. -/
theorem slot_names (presented : Presented m e parts columns) :
    (Layout.ofNamed columns).slots.map Prod.fst =
      (parts.reduceOption.map (·.name)).eraseDups := by
  obtain ⟨extra, ofCursor, names⟩ := presented.names
  have heads : ∀ parts : List (Option Selection), (parts.flatMap (partNames m e)).filterMap
      Layout.headOf = parts.reduceOption.flatMap fun item =>
        (item.names m e).filterMap Layout.headOf := by
    intro parts
    induction parts with
    | nil => rfl
    | cons part parts ih =>
      rw [List.flatMap_cons, List.filterMap_append, ih]
      cases part with
      | none =>
        have noHead : e.keyNames.filterMap Layout.headOf = [] := by
          rw [Entity.keyNames, List.filterMap_map, List.filterMap_eq_nil_iff]
          intro f _
          simp [Layout.headOf]
        rw [partNames, noHead]
        rfl
      | some item => rfl
  have noHeads : extra.filterMap Layout.headOf = [] := by
    rw [List.filterMap_eq_nil_iff]
    intro ns mem
    obtain ⟨n, rfl⟩ := ofCursor ns mem
    simp [Layout.headOf]
  have first : columns.filterMap (fun c => Layout.headOf c.1) =
      (columns.map Prod.fst).filterMap Layout.headOf := by
    rw [List.filterMap_map]
    rfl
  rw [Layout.ofNamed_names, first, names, FirstSeen.eraseDups_filterMap, List.filterMap_append,
    noHeads, List.append_nil, heads]
  apply FirstSeen.eraseDups_flatMap
  · intro item mem
    have fits := presented.fits item (List.reduceOption_mem_iff.mp mem)
    obtain ⟨ns, rest, some⟩ := List.exists_cons_of_ne_nil fits.ne_nil
    have head := fits.headOf plain ns (some ▸ List.mem_cons_self)
    rw [some, List.filterMap_cons_some head]
    exact List.cons_ne_nil _ _
  · intro item mem name inside
    have fits := presented.fits item (List.reduceOption_mem_iff.mp mem)
    obtain ⟨ns, memN, head⟩ := List.mem_filterMap.mp inside
    rw [fits.headOf plain ns memN] at head
    exact (Option.some.inj head).symm

include plain in
/-- A slot is that of an item. -/
theorem exists_item (presented : Presented m e parts columns) {name : String} {slot : Slot}
    (mem : (name, slot) ∈ (Layout.ofNamed columns).slots) :
    ∃ item, some item ∈ parts ∧ item.name = name ∧
      Keyed.get? Prod.fst name (Layout.ofNamed columns).slots = some (name, slot) := by
  have mentioned : name ∈ parts.reduceOption.map (·.name) := by
    rw [← List.mem_eraseDups, ← presented.slot_names plain]
    exact List.mem_map_of_mem mem
  obtain ⟨item, memI, same⟩ := List.mem_map.mp mentioned
  exact ⟨item, List.reduceOption_mem_iff.mp memI, same,
    Keyed.get?_of_mem (Layout.names_nodup columns) mem⟩

section

variable {name : String} {field : Field m.size} (found : e.field? name = some field)

include plain found in
theorem ne_reserved : name ≠ Path.keySegment ∧ name ≠ Path.cursorSegment := by
  have fieldName := plain field (Entity.mem_of_field? found)
  rw [Entity.name_of_field? found] at fieldName
  exact ⟨fieldName.notKey, fieldName.notCursor⟩

include plain found in
/-- Columns that go on from the name of a field are those of an item with that name. -/
theorem item_of_head (presented : Presented m e parts columns) {ns : List String}
    (mem : ns ∈ columns.map Prod.fst) {rest : List String} (head : ns = name :: rest) :
    ∃ item, some item ∈ parts ∧ item.name = name ∧ ns ∈ item.names m e := by
  obtain ⟨notKey, notCursor⟩ := ne_reserved plain found
  rcases presented.name_cases mem with ⟨-, key⟩ | ⟨item, inside, here⟩ | ⟨n, cursor⟩
  · obtain ⟨f, -, same⟩ := List.mem_map.mp key
    rw [head] at same
    exact absurd (List.cons.inj same).1.symm notKey
  · have named := (presented.fits item inside).headOf plain ns here
    refine ⟨item, inside, ?_, here⟩
    rw [head] at named
    cases rest with
    | nil => exact (Option.some.inj named).symm
    | cons next rest =>
      simp only [Layout.headOf, notKey, notCursor, or_self, if_false] at named
      exact (Option.some.inj named).symm
  · rw [head] at cursor
    exact absurd (List.cons.inj cursor).1 notCursor

end

include plain in
/-- A scalar has the slot of its column. -/
theorem slot_scalar (presented : Presented m e parts columns) {item : Selection}
    (mem : some item ∈ parts) {field : Field m.size} {s : Scalar}
    (found : e.field? item.name = some field) (store : field.store = .scalar s) :
    ∃ i, ([item.name], i) ∈ columns ∧
      Keyed.get? Prod.fst item.name (Layout.ofNamed columns).slots =
        some (item.name, .scalar i) := by
  have here : [item.name] ∈ item.names m e := by
    obtain ⟨name, children⟩ := item
    rw [Selection.names_scalar found store]
    exact List.mem_cons_self
  obtain ⟨i, memC⟩ := presented.exists_column mem here
  refine ⟨i, memC, Layout.get?_scalar presented.nodup memC ?_⟩
  rw [← List.map_eq_nil_iff , map_tails, List.filterMap_eq_nil_iff]
  intro ns memN
  cases tail : tailNames item.name ns with
  | none => rfl
  | some rest =>
    obtain ⟨head, some⟩ := tailNames_eq_some.mp tail
    obtain ⟨⟨name, children⟩, -, sameName, named⟩ :=
      presented.item_of_head plain found memN head
    simp only at sameName
    subst sameName
    rw [Selection.names_scalar found store, List.mem_singleton, head] at named
    exact absurd (List.cons.inj named).2 some

section

variable {name : String} {field : Field m.size} {link : Link m.size}
  (plainTarget : ∀ f ∈ (m.get link.target).fields, FieldName f.name)
  (found : e.field? name = some field) (store : field.store = .link link)

include plain found store in
/-- The names of a part below the name of a link are those of what it wants of the target. -/
theorem tails_partNames {part : Option Selection} (fits : ∀ other, part = some other →
      other.Fits m e) (plainTarget : ∀ f ∈ (m.get link.target).fields, FieldName f.name) :
    (partNames m e part).filterMap (tailNames name) =
      (partBelow m link name part).flatMap (partNames m (m.get link.target)) := by
  obtain ⟨notKey, notCursor⟩ := ne_reserved plain found
  cases part with
  | none =>
    rw [partNames, Entity.keyNames, List.filterMap_map, partBelow, List.flatMap_nil,
      List.filterMap_eq_nil_iff]
    intro f _
    simp [tailNames, notKey.symm]
  | some other =>
    have fitsOther := fits other rfl
    rw [partNames, partBelow]
    by_cases same : other.name = name
    · obtain ⟨here, -, each⟩ := fitsOther.of_link (same ▸ found) store
      rw [if_pos same, here, same, List.filterMap_map]
      have all : ∀ ns ∈ (spread m link other.children).flatMap (partNames m (m.get link.target)),
          (tailNames name ∘ (name :: ·)) ns = some ns := fun ns mem =>
        tailNames_eq_some.mpr ⟨rfl, ne_nil_of_mem_spread plainTarget each mem⟩
      rw [List.filterMap_congr all, List.filterMap_some]
    · rw [if_neg same, List.flatMap_nil, List.filterMap_eq_nil_iff]
      intro ns mem
      cases tail : tailNames name ns with
      | none => rfl
      | some rest =>
        obtain ⟨head, some⟩ := tailNames_eq_some.mp tail
        have named := fitsOther.headOf plain ns mem
        obtain ⟨next, rest, rfl⟩ := List.exists_cons_of_ne_nil some
        rw [head] at named
        simp only [Layout.headOf, notKey, notCursor, or_self, if_false, Option.some.injEq] at named
        exact absurd named.symm same

include plain plainTarget found store in
/-- The names of the columns below a link. -/
theorem tails_names (presented : Presented m e parts columns) :
    (Layout.tails name columns).map Prod.fst =
      ((partsBelow m link name parts).flatMap
        (partNames m (m.get link.target))).eraseDups := by
  obtain ⟨notKey, notCursor⟩ := ne_reserved plain found
  obtain ⟨extra, ofCursor, names⟩ := presented.names
  have distinct : (((parts.flatMap (partNames m e) ++ extra).eraseDups).filterMap
      (tailNames name)).Nodup := by
    apply FirstSeen.nodup_filterMap (FirstSeen.nodup_eraseDups _)
    intro a _ b _ c ha hb
    rw [(tailNames_eq_some.mp ha).1, (tailNames_eq_some.mp hb).1]
  have noTails : extra.filterMap (tailNames name) = [] := by
    rw [List.filterMap_eq_nil_iff]
    intro ns inside
    obtain ⟨n, rfl⟩ := ofCursor ns inside
    simp [tailNames, notCursor.symm]
  rw [map_tails, names, ← FirstSeen.eraseDups_of_nodup distinct, FirstSeen.eraseDups_filterMap,
    List.filterMap_append, noTails, List.append_nil, List.filterMap_flatMap, partsBelow,
    List.flatMap_assoc]
  congr 1
  apply List.flatMap_congr
  intro part mem
  exact tails_partNames plain found store (fun other same => presented.fits other (same ▸ mem))
    plainTarget

include plain plainTarget found store in
/-- What is wanted of the target of a link presents the columns below its name. -/
theorem below (presented : Presented m e parts columns) :
    Presented m (m.get link.target) (partsBelow m link name parts)
      (Layout.tails name columns) := by
  refine ⟨?_, [], by simp, ?_⟩
  · intro child inside
    obtain ⟨part, memP, here⟩ := List.mem_flatMap.mp inside
    cases part with
    | none => cases here
    | some other =>
      by_cases same : other.name = name
      · rw [partBelow, if_pos same] at here
        obtain ⟨-, -, each⟩ := (presented.fits other memP).of_link (same ▸ found) store
        exact each child (mem_of_mem_spread here)
      · rw [partBelow, if_neg same] at here
        cases here
  · rw [presented.tails_names plain plainTarget found store, List.append_nil]

end

include plain in
/-- A link has the slot of the layout for all that is wanted of its target. -/
theorem slot_link {item : Selection} {field : Field m.size} {link : Link m.size}
    (plainTarget : ∀ f ∈ (m.get link.target).fields, FieldName f.name)
    (found : e.field? item.name = some field) (store : field.store = .link link)
    (presented : Presented m e parts columns) (mem : some item ∈ parts) :
    Keyed.get? Prod.fst item.name (Layout.ofNamed columns).slots =
      some (item.name, .nested (Layout.ofNamed (Layout.tails item.name columns)).keys
        (Layout.ofNamed (Layout.tails item.name columns)).slots) := by
  obtain ⟨notKey, notCursor⟩ := ne_reserved plain found
  have some : Layout.tails item.name columns ≠ [] := by
    have fits := presented.fits item mem
    obtain ⟨here, -, each⟩ := fits.of_link found store
    obtain ⟨ns, rest, first⟩ := List.exists_cons_of_ne_nil fits.ne_nil
    have inside : ns ∈ item.names m e := first ▸ List.mem_cons_self
    obtain ⟨i, memC⟩ := presented.exists_column mem inside
    intro none
    rw [here] at inside
    obtain ⟨inner, memI, rfl⟩ := List.mem_map.mp inside
    have tail : tailNames item.name (item.name :: inner) = Option.some inner :=
      tailNames_eq_some.mpr ⟨rfl, ne_nil_of_mem_spread plainTarget each memI⟩
    have noTail := (List.filterMap_eq_nil_iff.mp
      ((map_tails item.name columns).symm.trans (congrArg (List.map Prod.fst) none))) _
      (List.mem_map_of_mem memC)
    rw [tail] at noTail
    cases noTail
  rw [Layout.get?_nested notKey notCursor, if_neg some]
  intro c memC single
  obtain ⟨other, inside, same, named⟩ := presented.item_of_head plain found
    (List.mem_map_of_mem memC) single
  obtain ⟨here, -, each⟩ := (presented.fits other inside).of_link (same ▸ found) store
  rw [here, single, same] at named
  obtain ⟨inner, memI, same'⟩ := List.mem_map.mp named
  exact ne_nil_of_mem_spread plainTarget each memI (List.cons.inj same').2

end Presented

end EntityGraph
