import Mathlib.Data.List.Induction
import EntityGraph.Proofs.FirstSeen
import EntityGraph.Proofs.Keyed
import EntityGraph.Tree.Layout

/-!
# The layout of named columns

Columns are given by the names of their paths. Those under one name make up the layout behind
that name, so a layout can be read off the names: its keys are the columns under the reserved
name, and its slots are for the other first names, in the order in which they are first seen.
-/
namespace EntityGraph.Layout

/-- A column by the names of its path, and its place in the result. -/
abbrev Named := List String × Nat

def ofNamed (columns : List Named) : Layout :=
  columns.foldl (fun l c => l.insert c.2 c.1) {}

theorem ofColumns_eq (columns : List String) :
    ofColumns columns = ofNamed (columns.zipIdx.map fun c => (Path.segments c.1, c.2)) := by
  rw [ofColumns, ofNamed, List.foldl_map]

theorem ofNamed_append (columns : List Named) (c : Named) :
    ofNamed (columns ++ [c]) = (ofNamed columns).insert c.2 c.1 := by
  simp [ofNamed]

/-- The name under which a column has its place at a level. -/
def headOf : List String → Option String
  | [] => none
  | [name] => some name
  | head :: _ :: _ =>
    if head = Path.keySegment ∨ head = Path.cursorSegment then none else some head

/-- The place of a column of the key. -/
def keyOf? : Named → Option Nat
  | (head :: _ :: _, i) => if head = Path.keySegment then some i else none
  | _ => none

theorem keyOf?_eq_some {names : List String} {i j : Nat} :
    keyOf? (names, i) = some j ↔ i = j ∧ ∃ next rest, names = Path.keySegment :: next :: rest := by
  match names with
  | [] => simp [keyOf?]
  | [_] => simp [keyOf?]
  | head :: next :: rest => by_cases isKey : head = Path.keySegment <;> simp [keyOf?, isKey]

/-- Where there are columns of a key, they alone tell rows apart. -/
theorem identity_of_keys {keys : List Nat} {slots : List (String × Slot)} (some : keys ≠ []) :
    identity keys slots = keys := by
  rw [identity, if_neg (by simpa using some)]

/-- What is left of a column's names below a name. -/
def tailOf? (name : String) : Named → Option Named
  | (head :: next :: rest, i) => if head = name then some (next :: rest, i) else none
  | _ => none

/-- The columns below a name. -/
def tails (name : String) (columns : List Named) : List Named :=
  columns.filterMap (tailOf? name)

theorem mem_tails {name : String} {columns : List Named} {rest : List String} {i : Nat} :
    (rest, i) ∈ tails name columns ↔ (name :: rest, i) ∈ columns ∧ rest ≠ [] := by
  rw [tails, List.mem_filterMap]
  constructor
  · rintro ⟨⟨names, j⟩, mem, here⟩
    match names with
    | [] => cases here
    | [n] => cases here
    | head :: next :: tail =>
      by_cases same : head = name
      · simp only [tailOf?, same, if_true, Option.some.injEq, Prod.mk.injEq] at here
        obtain ⟨rfl, rfl⟩ := here
        exact ⟨same ▸ mem, List.cons_ne_nil _ _⟩
      · simp [tailOf?, same] at here
  · rintro ⟨mem, some⟩
    obtain ⟨next, tail, rfl⟩ := List.exists_cons_of_ne_nil some
    exact ⟨_, mem, by simp [tailOf?]⟩

/-- Below a name paths are shorter. -/
theorem length_tails {name : String} {columns : List Named} {n : Nat}
    (short : ∀ c ∈ columns, c.1.length ≤ n) : ∀ c ∈ tails name columns, c.1.length ≤ n - 1 := by
  rintro ⟨names, i⟩ inside
  have whole := short _ (mem_tails.mp inside).1
  simp only [List.length_cons] at whole ⊢
  omega

theorem exists_longest (columns : List Named) : ∃ n, ∀ c ∈ columns, c.1.length ≤ n := by
  induction columns with
  | nil => exact ⟨0, fun c mem => by cases mem⟩
  | cons first columns ih =>
    obtain ⟨n, short⟩ := ih
    refine ⟨max first.1.length n, fun c mem => ?_⟩
    rcases List.mem_cons.mp mem with rfl | mem
    · exact Nat.le_max_left _ _
    · exact Nat.le_trans (short c mem) (Nat.le_max_right _ _)

/-- What putting one column changes: its place among the keys, or one slot. -/
theorem insert_nested {head next : String} {rest : List String} (notKey : head ≠ Path.keySegment)
    (notCursor : head ≠ Path.cursorSegment) (i : Nat) (l : Layout) :
    l.insert i (head :: next :: rest) = match l.below head with
      | none => l
      | some inner => l.putSlot head
        (.nested (inner.insert i (next :: rest)).keys (inner.insert i (next :: rest)).slots) := by
  cases inner : l.below head with
  | none => simp only [insert, if_neg notKey, if_neg notCursor, inner]
  | some inner' => simp only [insert, if_neg notKey, if_neg notCursor, inner]

theorem insert_keys (i : Nat) (names : List String) (l : Layout) :
    (l.insert i names).keys = l.keys ++ (keyOf? (names, i)).toList := by
  match names with
  | [] => simp [insert, keyOf?]
  | [name] => simp [insert, putSlot, keyOf?]
  | head :: next :: rest =>
    by_cases isKey : head = Path.keySegment
    · simp [insert, isKey, keyOf?]
    · by_cases isCursor : head = Path.cursorSegment
      · simp [insert, isCursor, keyOf?, show Path.cursorSegment ≠ Path.keySegment by decide]
      · rw [insert_nested isKey isCursor]
        cases l.below head <;> simp [putSlot, keyOf?, isKey]

theorem ofNamed_keys (columns : List Named) :
    (ofNamed columns).keys = columns.filterMap keyOf? := by
  induction columns using List.reverseRecOn with
  | nil => rfl
  | append_singleton columns c ih =>
    rw [ofNamed_append, insert_keys, ih, List.filterMap_append]
    cases here : keyOf? c with
    | none => simp [here]
    | some i => simp [here]

theorem mem_slots_of_below {l : Layout} {name : String} (none : l.below name = none) :
    name ∈ l.slots.map Prod.fst := by
  unfold below at none
  split at none
  · cases none
  · cases none
  · rename_i found
    exact List.mem_map.mpr ⟨_, Keyed.mem_of_get? found, Keyed.key_of_get? found⟩

/-- The names of the slots are the first names of the columns. -/
theorem ofNamed_names (columns : List Named) :
    (ofNamed columns).slots.map Prod.fst = (columns.filterMap fun c => headOf c.1).eraseDups := by
  induction columns using List.reverseRecOn with
  | nil => rfl
  | append_singleton columns c ih =>
    obtain ⟨names, i⟩ := c
    have put : ∀ (name : String) (slot : Slot),
        ((ofNamed columns).putSlot name slot).slots.map Prod.fst =
          ((columns.filterMap fun c => headOf c.1) ++ [name]).eraseDups := by
      intro name slot
      rw [putSlot, Keyed.map_put, ih, FirstSeen.eraseDups_concat]
      simp only [List.mem_eraseDups]
    rw [ofNamed_append, List.filterMap_append]
    match names with
    | [] => simpa [insert, headOf] using ih
    | [name] =>
      rw [insert, put]
      rfl
    | head :: next :: rest =>
      by_cases isKey : head = Path.keySegment
      · simpa [insert, isKey, headOf] using ih
      · by_cases isCursor : head = Path.cursorSegment
        · simpa [insert, isCursor, headOf, show Path.cursorSegment ≠ Path.keySegment by decide]
            using ih
        · have headHere : headOf (head :: next :: rest) = some head := by
            simp [headOf, isKey, isCursor]
          simp only [List.filterMap_cons, headHere, List.filterMap_nil]
          rw [insert_nested isKey isCursor]
          cases below : (ofNamed columns).below head with
          | some inner => exact put head _
          | none =>
            have seen := mem_slots_of_below below
            rw [ih, List.mem_eraseDups] at seen
            simp only [ih, FirstSeen.eraseDups_concat, seen, if_true]

theorem names_nodup (columns : List Named) : ((ofNamed columns).slots.map Prod.fst).Nodup := by
  rw [ofNamed_names]
  exact FirstSeen.nodup_eraseDups _

theorem get?_putSlot (l : Layout) (name other : String) (slot : Slot) :
    Keyed.get? Prod.fst other (l.putSlot name slot).slots =
      if name = other then some (name, slot) else Keyed.get? Prod.fst other l.slots :=
  Keyed.get?_put _ _ _

/-- A column whose first name is another one leaves alone what a name stands for. -/
theorem get?_insert_of_ne {names : List String} {name : String} (other : names.head? ≠ some name)
    (i : Nat) (l : Layout) : Keyed.get? Prod.fst name (l.insert i names).slots =
      Keyed.get? Prod.fst name l.slots := by
  match names with
  | [] => rfl
  | [n] => rw [insert, get?_putSlot, if_neg (by simpa using other)]
  | head :: next :: rest =>
    by_cases isKey : head = Path.keySegment
    · simp [insert, isKey]
    · by_cases isCursor : head = Path.cursorSegment
      · simp [insert, isCursor, show Path.cursorSegment ≠ Path.keySegment by decide]
      · rw [insert_nested isKey isCursor]
        cases l.below head with
        | none => rfl
        | some inner => rw [get?_putSlot, if_neg (by simpa using other)]

theorem tails_append_of_ne {names : List String} {name : String}
    (other : names.head? ≠ some name) (columns : List Named) (i : Nat) :
    tails name (columns ++ [(names, i)]) = tails name columns := by
  have none : tailOf? name (names, i) = none := by
    match names with
    | [] => rfl
    | [_] => rfl
    | head :: next :: rest => exact if_neg (by simpa using other)
  simp [tails, List.filterMap_append, none]

/-- Behind a name that is no scalar is the layout of the columns below it. -/
theorem get?_nested {columns : List Named} {name : String} (notKey : name ≠ Path.keySegment)
    (notCursor : name ≠ Path.cursorSegment) (noScalar : ∀ c ∈ columns, c.1 ≠ [name]) :
    Keyed.get? Prod.fst name (ofNamed columns).slots =
      if tails name columns = [] then none
      else some (name, .nested (ofNamed (tails name columns)).keys
        (ofNamed (tails name columns)).slots) := by
  induction columns using List.reverseRecOn with
  | nil => rfl
  | append_singleton columns c ih =>
    have earlier := ih fun c' mem => noScalar c' (List.mem_append_left _ mem)
    have last := noScalar c (List.mem_append_right _ List.mem_cons_self)
    obtain ⟨names, i⟩ := c
    rw [ofNamed_append]
    by_cases other : names.head? ≠ some name
    · rw [tails_append_of_ne other, get?_insert_of_ne other]
      exact earlier
    · obtain ⟨rest, rfl⟩ := List.head?_eq_some_iff.mp (not_not.mp other)
      have longer : rest ≠ [] := by
        rintro rfl
        exact last rfl
      obtain ⟨next, rest, rfl⟩ := List.exists_cons_of_ne_nil longer
      have grown : tails name (columns ++ [(name :: next :: rest, i)]) =
          tails name columns ++ [(next :: rest, i)] := by
        simp [tails, List.filterMap_append, tailOf?]
      have inner : (ofNamed columns).below name = some (ofNamed (tails name columns)) := by
        by_cases empty : tails name columns = []
        · rw [below, earlier, if_pos empty, empty]
          rfl
        · rw [below, earlier, if_neg empty]
      rw [grown, insert_nested notKey notCursor, inner]
      simp only
      rw [get?_putSlot, if_pos rfl, if_neg (by simp), ofNamed_append]

/-- A name that no column goes on from stands for its own column. -/
theorem get?_scalar {columns : List Named} {name : String} {i : Nat}
    (distinct : (columns.map Prod.fst).Nodup) (mem : ([name], i) ∈ columns)
    (noNested : tails name columns = []) :
    Keyed.get? Prod.fst name (ofNamed columns).slots = some (name, .scalar i) := by
  induction columns using List.reverseRecOn with
  | nil => cases mem
  | append_singleton columns c ih =>
    rw [List.map_append, List.nodup_append] at distinct
    obtain ⟨distinctEarlier, -, apart⟩ := distinct
    rw [tails, List.filterMap_append] at noNested
    obtain ⟨noneEarlier, noneHere⟩ := List.append_eq_nil_iff.mp noNested
    obtain ⟨names, j⟩ := c
    rw [ofNamed_append]
    rcases List.mem_append.mp mem with early | now
    · have differ : [name] ≠ names := apart _ (List.mem_map_of_mem early) _ (by simp)
      have other : names.head? ≠ some name := by
        intro same
        obtain ⟨rest, rfl⟩ := List.head?_eq_some_iff.mp same
        have longer : rest ≠ [] := by
          rintro rfl
          exact differ rfl
        obtain ⟨next, rest, rfl⟩ := List.exists_cons_of_ne_nil longer
        simp [tailOf?] at noneHere
      rw [get?_insert_of_ne other]
      exact ih distinctEarlier early noneEarlier
    · obtain ⟨rfl, rfl⟩ := Prod.mk.inj (List.mem_singleton.mp now)
      rw [insert, get?_putSlot, if_pos rfl]

end EntityGraph.Layout
