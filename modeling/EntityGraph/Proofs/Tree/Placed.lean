import EntityGraph.Proofs.Tree.Forest
import EntityGraph.Proofs.Tree.Readable

/-!
# The places of columns

Every column has one place in a layout at most, and those of a cursor have none. In the layout of
a selection the slots are for the fields of their names, all the way down.
-/
namespace EntityGraph

variable {m : Model}

namespace Slot

theorem allColumns_append (slots more : List (String × Slot)) :
    allColumns (slots ++ more) = allColumns slots ++ allColumns more := by
  induction slots with
  | nil => rfl
  | cons slot slots ih => rw [List.cons_append, allColumns, allColumns, ih, List.append_assoc]

theorem allName_iff {e : Entity m.size} {slots : List (String × Slot)} :
    AllName m e slots ↔ ∀ p ∈ slots, p.2.Names m e p.1 := by
  induction slots with
  | nil => simp [AllName]
  | cons slot slots ih => rw [AllName, ih, List.forall_mem_cons]

end Slot

namespace Layout

/-- All columns of a layout. -/
def columns (l : Layout) : List Nat :=
  l.keys ++ Slot.allColumns l.slots

/-- The columns that have their places under a name. -/
def columnsAt (l : Layout) (name : String) : List Nat :=
  (Keyed.get? Prod.fst name l.slots).elim [] fun p => p.2.columns

/-- Whether a path is of the cursor. -/
def ofCursor : List String → Bool
  | head :: _ :: _ => head == Path.cursorSegment
  | _ => false

theorem columnsAt_of_below {l inner : Layout} {name : String} (below : l.below name = some inner) :
    l.columnsAt name = inner.columns := by
  unfold Layout.below at below
  unfold columnsAt
  split at below
  · rename_i none
    obtain rfl := Option.some.inj below
    rw [none]
    rfl
  · rename_i keys slots found
    obtain rfl := Option.some.inj below
    rw [found]
    rfl
  · cases below

/-- A slot brings its own columns, and the others stay. -/
theorem count_putSlot {l : Layout} {name : String} {slot : Slot} {i c : Nat}
    (bound : slot.columns.count c ≤ (i :: l.columnsAt name).count c) :
    (l.putSlot name slot).columns.count c ≤ (i :: l.columns).count c := by
  rw [columnsAt] at bound
  simp only [columns, putSlot, List.count_cons, List.count_append] at bound ⊢
  obtain ⟨none, whole⟩ | ⟨before, old, after, found, parted, whole⟩ :=
    @Keyed.put_cases _ Prod.fst (name, slot) l.slots
  · simp only [none, Option.elim_none, List.count_nil] at bound
    simp only [whole, Slot.allColumns_append, Slot.allColumns, List.count_append, List.count_nil]
    omega
  · simp only [found, Option.elim_some] at bound
    rw [whole, parted]
    simp only [Slot.allColumns_append, Slot.allColumns, List.count_append]
    omega

/-- A column is put in one place at most. -/
theorem count_insert (i c : Nat) (names : List String) (l : Layout) :
    (l.insert i names).columns.count c ≤ (i :: l.columns).count c := by
  induction names generalizing l with
  | nil => exact (List.sublist_cons_self i l.columns).count_le c
  | cons head tail ih =>
    cases tail with
    | nil =>
      refine count_putSlot ?_
      exact ((List.nil_sublist (l.columnsAt head)).cons_cons i).count_le c
    | cons next rest =>
      by_cases isKey : head = Path.keySegment
      · simp only [insert, isKey, if_true, columns, List.count_append, List.count_cons,
          List.count_nil]
        omega
      · by_cases isCursor : head = Path.cursorSegment
        · have same : l.insert i (head :: next :: rest) = l := by
            simp only [insert, if_neg isKey, if_pos isCursor]
          rw [same]
          exact (List.sublist_cons_self i l.columns).count_le c
        · rw [insert_nested isKey isCursor]
          cases below : l.below head with
          | none => exact (List.sublist_cons_self i l.columns).count_le c
          | some inner =>
            refine count_putSlot ?_
            rw [columnsAt_of_below below]
            exact ih inner

theorem insert_ofCursor {names : List String} (of : ofCursor names = true) (i : Nat)
    (l : Layout) : l.insert i names = l := by
  match names with
  | [] => cases of
  | [_] => cases of
  | head :: next :: rest =>
    obtain rfl : head = Path.cursorSegment := by simpa [ofCursor] using of
    simp [insert, show Path.cursorSegment ≠ Path.keySegment by decide]

/-- The columns of a layout are among those that are not of the cursor. -/
theorem count_ofNamed (named : List Named) (c : Nat) :
    (ofNamed named).columns.count c ≤
      ((named.filter fun n => !ofCursor n.1).map Prod.snd).count c := by
  induction named using List.reverseRecOn with
  | nil => exact Nat.le_refl _
  | append_singleton named n ih =>
    rw [ofNamed_append, List.filter_append, List.map_append, List.count_append]
    cases of : ofCursor n.1 with
    | true =>
      rw [insert_ofCursor of]
      exact Nat.le_add_right_of_le ih
    | false =>
      have last := count_insert n.2 c n.1 (ofNamed named)
      simp only [of, List.filter_cons, Bool.not_false, if_true, List.filter_nil, List.map_cons,
        List.map_nil, List.count_cons, List.count_nil] at last ⊢
      omega

variable (names : List String)

theorem mem_cursorColumns {names : List String} {i : Nat} :
    i ∈ cursorColumns names ↔ ∃ name, names[i]? = some name ∧ isCursor name = true := by
  simp only [cursorColumns, List.mem_filterMap, Prod.exists, List.mk_mem_zipIdx_iff_getElem?,
    Option.ite_none_right_eq_some, Option.some.injEq]
  constructor
  · rintro ⟨name, j, here, of, rfl⟩
    exact ⟨name, here, of⟩
  · rintro ⟨name, here, of⟩
    exact ⟨name, i, here, of, rfl⟩

theorem isCursor_eq (name : String) : isCursor name = ofCursor (Path.segments name) := by
  unfold isCursor ofCursor
  rfl

theorem columns_nodup : (ofColumns names).columns.Nodup := by
  have distinct : ((named names).map Prod.snd).Nodup := by
    rw [named, List.map_map]
    change (names.zipIdx.map Prod.snd).Nodup
    rw [List.zipIdx_map_snd]
    exact List.nodup_range'
  rw [List.nodup_iff_count_le_one]
  intro c
  have bound := count_ofNamed (named names) c
  have sub : ((named names).filter fun n => !ofCursor n.1).Sublist (named names) :=
    List.filter_sublist
  have one := List.nodup_iff_count_le_one.mp (distinct.sublist (sub.map Prod.snd)) c
  rw [ofColumns_named]
  exact Nat.le_trans bound one

/-- The columns of a layout are those of the result that are not of the cursor. -/
theorem mem_columns {names : List String} {c : Nat} (mem : c ∈ (ofColumns names).columns) :
    c < names.length ∧ c ∉ cursorColumns names := by
  rw [ofColumns_named] at mem
  have bound := count_ofNamed (named names) c
  have some := List.count_pos_iff.mpr mem
  have inside := List.count_pos_iff.mp (Nat.lt_of_lt_of_le some bound)
  obtain ⟨⟨segments, j⟩, memF, rfl⟩ := List.mem_map.mp inside
  obtain ⟨memN, of⟩ := List.mem_filter.mp memF
  obtain ⟨⟨name, k⟩, memZ, same⟩ := List.mem_map.mp memN
  obtain ⟨rfl, rfl⟩ := Prod.mk.inj same
  have here := List.mk_mem_zipIdx_iff_getElem?.mp memZ
  refine ⟨(List.getElem?_eq_some_iff.mp here).1, fun cursor => ?_⟩
  obtain ⟨name', here', of'⟩ := mem_cursorColumns.mp cursor
  obtain rfl := Option.some.inj (here.symm.trans here')
  rw [isCursor_eq] at of'
  simp [of'] at of

theorem cursorColumns_lt {names : List String} {c : Nat} (mem : c ∈ cursorColumns names) :
    c < names.length := by
  obtain ⟨name, here, -⟩ := mem_cursorColumns.mp mem
  exact (List.getElem?_eq_some_iff.mp here).1

theorem cursorColumns_nodup : (cursorColumns names).Nodup := by
  have chosen : cursorColumns names =
      (names.zipIdx.filter fun c => isCursor c.1).map Prod.snd := by
    rw [← List.filterMap_eq_map, List.filterMap_filter]
    rfl
  have sub : (names.zipIdx.filter fun c => isCursor c.1).Sublist names.zipIdx :=
    List.filter_sublist
  rw [chosen]
  refine List.Nodup.sublist (sub.map Prod.snd) ?_
  rw [List.zipIdx_map_snd]
  exact List.nodup_range'

end Layout

/-! ## Slots and fields -/

/-- The slots of a selection are for the fields that they are named for. -/
theorem Presented.allName (plain : m.PlainNames) (n : Nat) {e : Entity m.size}
    {parts : List (Option Selection)} {columns : List Layout.Named} (known : e ∈ m.entities)
    (short : ∀ c ∈ columns, c.1.length ≤ n) (presented : Presented m e parts columns) :
    Slot.AllName m e (Layout.ofNamed columns).slots := by
  induction n using Nat.strongRecOn generalizing e parts columns with
  | ind n ih =>
    have plainHere := plain e known
    refine Slot.allName_iff.mpr ?_
    rintro ⟨name, slot⟩ memS
    obtain ⟨item, mem, rfl, found⟩ := presented.exists_item plainHere memS
    obtain ⟨field, named⟩ := (presented.fits item mem).exists_field
    cases store : field.store with
    | scalar s =>
      obtain ⟨i, -, here⟩ := presented.slot_scalar plainHere mem named store
      rw [found] at here
      obtain ⟨-, rfl⟩ := Prod.mk.inj (Option.some.inj here)
      exact ⟨field, s, named, store⟩
    | link link =>
      have plainTarget := plain _ (m.get_mem link.target)
      have here := presented.slot_link plainHere plainTarget named store mem
      rw [found] at here
      obtain ⟨-, rfl⟩ := Prod.mk.inj (Option.some.inj here)
      have positive := presented.length_pos plainHere mem short
      refine ⟨field, link, named, store, ?_⟩
      exact ih (n - 1) (by omega) (m.get_mem _) (Layout.length_tails short)
        (presented.below plainHere plainTarget named store)

end EntityGraph
