import EntityGraph.Path
import EntityGraph.Proofs.Number.Decimal

/-!
# Names and paths

A path that is put together from plain names falls apart into the same names, so paths can be
read as lists of names throughout.
-/
namespace EntityGraph.Path

/-- A name that can stand in a path. -/
def Plain (name : String) : Prop :=
  name ≠ "" ∧ '.' ∉ name.toList

instance (name : String) : Decidable (Plain name) :=
  inferInstanceAs (Decidable (_ ∧ _))

/-- The names of a path, of which the empty path has none. -/
def names (path : String) : List String :=
  if path = "" then [] else segments path

/-- The path that goes on from `parent` by the given names. -/
def extend (parent : String) (ns : List String) : String :=
  ns.foldl child parent

@[simp] theorem names_empty : names "" = [] := rfl

@[simp] theorem extend_nil (parent : String) : extend parent [] = parent := rfl

@[simp] theorem extend_cons (parent n : String) (ns : List String) :
    extend parent (n :: ns) = extend (child parent n) ns := rfl

theorem segments_ne_nil (path : String) : segments path ≠ [] := by
  simp [segments]

theorem segments_of_undotted {name : String} (undotted : '.' ∉ name.toList) :
    segments name = [name] := by
  have whole : name.toList.splitOnP (· == '.') = [name.toList] := by
    apply List.splitOnP_eq_singleton
    intro c mem
    have other : c ≠ '.' := fun same => undotted (same ▸ mem)
    simp [other]
  rw [segments, whole, List.map_singleton, String.ofList_toList]

/-- The names of a path are those before and after a dot. -/
theorem segments_dot (front back : String) :
    segments (front ++ "." ++ back) = segments front ++ segments back := by
  have chars : (front ++ "." ++ back).toList = front.toList ++ '.' :: back.toList := by simp
  rw [segments, chars, List.splitOnP_append_cons _ _ (by simp), List.map_append]
  rfl

/-- A path of one name is that name, in which there is no dot. -/
theorem segments_eq_singleton {path name : String} :
    segments path = [name] ↔ path = name ∧ '.' ∉ path.toList := by
  constructor
  · intro single
    have undotted : '.' ∉ path.toList := by
      intro dot
      obtain ⟨front, back, split⟩ := List.append_of_mem dot
      rw [segments, split, List.splitOnP_append_cons _ _ (by simp), List.map_append] at single
      have length := congrArg List.length single
      have some := List.length_pos_iff.mpr (List.splitOnP_ne_nil (· == '.') front)
      have more := List.length_pos_iff.mpr (List.splitOnP_ne_nil (· == '.') back)
      simp only [List.length_append, List.length_map, List.length_singleton] at length
      omega
    rw [segments_of_undotted undotted] at single
    exact ⟨List.singleton_inj.mp single, undotted⟩
  · rintro ⟨rfl, undotted⟩
    exact segments_of_undotted undotted

theorem segments_key (name : String) : segments (key "" name) = keySegment :: segments name := by
  have start : key "" name = keySegment ++ "." ++ name := rfl
  rw [start, segments_dot, segments_of_undotted (by decide), List.singleton_append]

theorem child_ne_empty {parent name : String} (plain : Plain name) : child parent name ≠ "" := by
  unfold child
  split
  · exact plain.1
  · intro h
    have hl := congrArg String.toList h
    simp at hl

theorem names_child {parent name : String} (plain : Plain name) :
    names (child parent name) = names parent ++ [name] := by
  have h : child parent name ≠ "" := child_ne_empty plain
  rw [names, if_neg h]
  unfold child
  split
  · rename_i root
    simp [root, segments_of_undotted plain.2]
  · rename_i notRoot
    rw [names, if_neg notRoot, segments_dot, segments_of_undotted plain.2]

theorem names_extend (parent : String) {ns : List String} (plain : ∀ n ∈ ns, Plain n) :
    names (extend parent ns) = names parent ++ ns := by
  induction ns generalizing parent with
  | nil => simp
  | cons n ns ih =>
    rw [extend_cons, ih _ (fun m hm => plain m (List.mem_cons_of_mem n hm)),
      names_child (plain n List.mem_cons_self)]
    simp

/-- The names of a path that has any are its segments. -/
theorem segments_extend {ns : List String} (plain : ∀ n ∈ ns, Plain n) (some : ns ≠ []) :
    segments (extend "" ns) = ns := by
  have h := names_extend "" plain
  rw [names_empty, List.nil_append, names] at h
  split at h
  · exact absurd h.symm some
  · exact h

theorem segments_injective {a b : String} (h : segments a = segments b) : a = b := by
  have chars : ∀ path : String, (['.'].intercalate ((segments path).map String.toList)) =
      path.toList := by
    intro path
    rw [segments, List.map_map, String.toList_comp_ofList, List.map_id]
    exact List.intercalate_splitOn '.'
  apply String.toList_injective
  rw [← chars a, ← chars b, h]

theorem names_injective {a b : String} (h : names a = names b) : a = b := by
  unfold names at h
  split at h <;> split at h
  · simp_all
  · exact absurd h.symm (segments_ne_nil b)
  · exact absurd h (segments_ne_nil a)
  · exact segments_injective h

/-- A path stays within the root if it is one name, or one below the reserved name. -/
theorem isRoot_iff {path : String} : isRoot path = true ↔
    (∃ name, segments path = [name]) ∨ ∃ name, segments path = [keySegment, name] := by
  unfold isRoot
  split
  · rename_i single
    simp [single]
  · rename_i two
    simp [two]
  · rename_i single two
    refine iff_of_false Bool.false_ne_true (not_or.mpr ⟨?_, ?_⟩)
    · rintro ⟨name, segs⟩
      exact single name segs
    · rintro ⟨name, segs⟩
      exact two _ name segs

theorem exists_name_of_isRoot {path : String} (root : isRoot path = true)
    (unreserved : (segments path).head? ≠ some keySegment) : ∃ name, segments path = [name] := by
  obtain single | ⟨name, two⟩ := isRoot_iff.mp root
  · exact single
  · exact absurd (by rw [two, List.head?_cons]) unreserved

/-- A path that leaves the root goes over links. -/
theorem dropLast_segments_ne_nil {path : String} (cross : isRoot path = false) :
    (segments path).dropLast ≠ [] := by
  intro none
  have single : ∃ name, segments path = [name] := by
    cases segs : segments path with
    | nil => exact absurd segs (segments_ne_nil path)
    | cons first rest =>
      cases rest with
      | nil => exact ⟨first, rfl⟩
      | cons next rest => simp [segs] at none
  rw [isRoot_iff.mpr (Or.inl single)] at cross
  cases cross

theorem child_injective {p q a b : String} (ha : Plain a) (hb : Plain b)
    (h : child p a = child q b) : p = q ∧ a = b := by
  have same := congrArg names h
  rw [names_child ha, names_child hb] at same
  obtain ⟨hp, hn⟩ := List.append_inj' same rfl
  exact ⟨names_injective hp, List.singleton_inj.mp hn⟩

theorem plain_keySegment : Plain keySegment := by
  decide

theorem plain_cursorSegment : Plain cursorSegment := by
  decide

theorem plain_ofNat (n : Nat) : Plain (Decimal.ofNat n) := by
  constructor
  · intro h
    exact Decimal.digits_ne_nil n (String.ofList_eq_empty_iff.mp h)
  · intro dot
    have hd := Decimal.isDigit_of_mem_digits n '.' (by simpa [Decimal.ofNat] using dot)
    revert hd
    decide

end EntityGraph.Path
