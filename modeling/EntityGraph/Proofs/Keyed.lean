import Mathlib.Data.List.Nodup
import EntityGraph.Keyed

/-!
# Looking up by key

What is found under a key has that key. Where the keys are distinct, every entry is found, and
putting an entry changes what is found under its own key alone.
-/
namespace EntityGraph.Keyed

variable {α : Type} {key : α → String}

theorem get?_cons (k : String) (x : α) (xs : List α) :
    get? key k (x :: xs) = if key x = k then some x else get? key k xs := by
  by_cases h : key x = k <;> simp [get?, h]

theorem key_of_get? {k : String} {xs : List α} {x : α} (h : get? key k xs = some x) :
    key x = k := by
  have found := List.find?_some h
  simpa using found

theorem mem_of_get? {k : String} {xs : List α} {x : α} (h : get? key k xs = some x) : x ∈ xs :=
  List.mem_of_find?_eq_some h

theorem get?_eq_none {k : String} {xs : List α} : get? key k xs = none ↔ ∀ x ∈ xs, key x ≠ k := by
  simp [get?]

theorem get?_of_mem {xs : List α} (distinct : (xs.map key).Nodup) {x : α} (mem : x ∈ xs) :
    get? key (key x) xs = some x := by
  induction xs with
  | nil => cases mem
  | cons y xs ih =>
    obtain ⟨fresh, rest⟩ := List.nodup_cons.mp distinct
    rw [get?_cons]
    rcases List.mem_cons.mp mem with rfl | later
    · rw [if_pos rfl]
    · have other : key y ≠ key x := fun same => fresh (same ▸ List.mem_map_of_mem later)
      rw [if_neg other]
      exact ih rest later

theorem get?_put (k : String) (x : α) (xs : List α) :
    get? key k (put key x xs) = if key x = k then some x else get? key k xs := by
  induction xs with
  | nil => rw [put, get?_cons]
  | cons y xs ih =>
    by_cases same : key y = key x
    · by_cases here : key x = k
      · simp [put, same, get?_cons, here]
      · simp [put, same, get?_cons, here]
    · have kept : put key x (y :: xs) = y :: put key x xs := by simp [put, same]
      rw [kept, get?_cons, get?_cons, ih]
      by_cases here : key y = k
      · have other : key x ≠ k := fun h => same (here.trans h.symm)
        rw [if_pos here, if_neg other, if_pos here]
      · rw [if_neg here, if_neg here]

theorem put_of_fresh {x : α} {xs : List α} (fresh : key x ∉ xs.map key) :
    put key x xs = xs ++ [x] := by
  induction xs with
  | nil => rfl
  | cons y xs ih =>
    rw [List.map_cons, List.mem_cons, not_or] at fresh
    have other : ¬ key y = key x := fun same => fresh.1 same.symm
    simp [put, other, ih fresh.2]

/-- An entry is put behind all others, or in the place of what is found under its key. -/
theorem put_cases (x : α) (xs : List α) :
    (get? key (key x) xs = none ∧ put key x xs = xs ++ [x]) ∨
      ∃ before y after, get? key (key x) xs = some y ∧ xs = before ++ y :: after ∧
        put key x xs = before ++ x :: after := by
  induction xs with
  | nil => exact Or.inl ⟨rfl, rfl⟩
  | cons z xs ih =>
    by_cases same : key z = key x
    · exact Or.inr ⟨[], z, xs, by simp [get?, same], rfl, by simp [put, same]⟩
    · have kept : put key x (z :: xs) = z :: put key x xs := by simp [put, same]
      have found : get? key (key x) (z :: xs) = get? key (key x) xs := by
        rw [get?_cons, if_neg same]
      rw [kept, found]
      rcases ih with ⟨none, whole⟩ | ⟨before, y, after, some, rfl, whole⟩
      · exact Or.inl ⟨none, by rw [whole, List.cons_append]⟩
      · exact Or.inr ⟨z :: before, y, after, some, rfl, by rw [whole, List.cons_append]⟩

/-- The keys after an entry has been put. -/
theorem map_put (x : α) (xs : List α) :
    (put key x xs).map key = if key x ∈ xs.map key then xs.map key else xs.map key ++ [key x] := by
  induction xs with
  | nil => simp [put]
  | cons y xs ih =>
    by_cases same : key y = key x
    · simp [put, same]
    · have other : ¬ key x = key y := fun h => same h.symm
      have kept : put key x (y :: xs) = y :: put key x xs := by simp [put, same]
      rw [kept, List.map_cons, ih]
      by_cases later : key x ∈ xs.map key <;> simp [later, other]

theorem nodup_put (x : α) {xs : List α} (distinct : (xs.map key).Nodup) :
    ((put key x xs).map key).Nodup := by
  rw [map_put]
  split
  · exact distinct
  · rename_i fresh
    exact List.concat_eq_append ▸ distinct.concat fresh

/-- Keys are distinct where entries have been put one after the other. -/
theorem nodup_ofList (xs : List α) : ((ofList key xs).map key).Nodup := by
  have run : ∀ (xs start : List α), (start.map key).Nodup →
      ((xs.foldl (fun entries x => put key x entries) start).map key).Nodup := by
    intro xs
    induction xs with
    | nil => exact fun _ distinct => distinct
    | cons x xs ih => exact fun start distinct => ih _ (nodup_put x distinct)
  exact run xs [] List.nodup_nil

theorem mem_of_mem_put {x y : α} {xs : List α} (mem : y ∈ put key x xs) : y = x ∨ y ∈ xs := by
  induction xs with
  | nil => exact Or.inl (List.mem_singleton.mp mem)
  | cons z xs ih =>
    by_cases same : key z = key x
    · simp only [put, same, beq_self_eq_true, if_true] at mem
      exact (List.mem_cons.mp mem).imp_right (List.mem_cons_of_mem z)
    · simp only [put, beq_iff_eq, same, if_false] at mem
      rcases List.mem_cons.mp mem with rfl | later
      · exact Or.inr List.mem_cons_self
      · exact (ih later).imp_right (List.mem_cons_of_mem z)

theorem mem_of_mem_ofList {y : α} {xs : List α} (mem : y ∈ ofList key xs) : y ∈ xs := by
  have run : ∀ (xs start : List α), y ∈ xs.foldl (fun entries x => put key x entries) start →
      y ∈ start ∨ y ∈ xs := by
    intro xs
    induction xs with
    | nil => exact fun start mem => Or.inl mem
    | cons x xs ih =>
      intro start mem
      rcases ih _ mem with here | later
      · rcases mem_of_mem_put here with rfl | earlier
        · exact Or.inr List.mem_cons_self
        · exact Or.inl earlier
      · exact Or.inr (List.mem_cons_of_mem x later)
  exact (run xs [] mem).resolve_left List.not_mem_nil

end EntityGraph.Keyed
