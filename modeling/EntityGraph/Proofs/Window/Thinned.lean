import Mathlib.Data.List.Perm.Basic
import EntityGraph.Proofs.Window.Split

/-!
# Windows of thinned lists

Where rows are taken out of what has been fetched before the window is cut out of it, other rows
move up: the one fetched beyond the window as soon as any before it is gone, and those in front
of the window as soon as the window itself has lost one.
-/
namespace EntityGraph

variable {α : Type}

theorem rtake_append_of_length_eq (xs : List α) {ys : List α} {n : Nat} (same : ys.length = n) :
    (xs ++ ys).rtake n = ys := by
  rw [List.rtake, List.length_append, same, Nat.add_sub_cancel, List.drop_left]

/-- Where the second part is too short, the last rows reach into the first one. -/
theorem getLast_mem_rtake {xs : List α} (ys : List α) {n : Nat} (some : xs ≠ [])
    (short : ys.length < n) : xs.getLast some ∈ (xs ++ ys).rtake n := by
  have cut : (xs ++ ys).length - n ≤ xs.dropLast.length := by
    have := List.length_pos_of_ne_nil some
    rw [List.length_append, List.length_dropLast]
    omega
  have whole : xs ++ ys = xs.dropLast ++ (xs.getLast some :: ys) := by
    conv_lhs => rw [← List.dropLast_append_getLast some, List.append_assoc]
    rfl
  rw [List.rtake, whole, List.drop_append_of_le_length (whole ▸ cut)]
  exact List.mem_append_right _ List.mem_cons_self

namespace Split

/-- Whether each part of one cut is what is left of the same part of another one. -/
structure Within (s' s : Split α) : Prop where
  front : s'.front.Sublist s.front
  window : s'.window.Sublist s.window
  rest : s'.rest.Sublist s.rest

variable {s s' : Split α}

theorem exists_within {kept : List α} (sub : kept.Sublist s.all) :
    ∃ s' : Split α, s'.all = kept ∧ s'.Within s := by
  obtain ⟨near, rest, rfl, subNear, subRest⟩ := List.sublist_append_iff.mp sub
  obtain ⟨front, window, rfl, subFront, subWindow⟩ := List.sublist_append_iff.mp subNear
  exact ⟨⟨front, window, rest⟩, rfl, subFront, subWindow, subRest⟩

namespace Within

variable (within : s'.Within s)
include within

/-- Where something before the rest is gone, less is left there. -/
theorem length_lt (gone : ¬ (s'.front = s.front ∧ s'.window = s.window)) :
    (s'.front ++ s'.window).length < (s.front ++ s.window).length := by
  have front := within.front.length_le
  have window := within.window.length_le
  rw [List.length_append, List.length_append]
  by_contra all
  exact gone ⟨within.front.eq_of_length_le (by omega), within.window.eq_of_length_le (by omega)⟩

variable (nodup : s.all.Nodup)
include nodup

/-- What is left of a cut is left of the parts in which it was. -/
theorem mem_all {x : α} : (x ∈ s.front → x ∈ s'.all → x ∈ s'.front) ∧
    (x ∈ s.window → x ∈ s'.all → x ∈ s'.window) ∧ (x ∈ s.rest → x ∈ s'.all → x ∈ s'.rest) := by
  obtain ⟨near, -, beyond⟩ := List.nodup_append.mp nodup
  have apart := (List.nodup_append.mp near).2.2
  have inFront : x ∈ s'.front → x ∈ s.front := within.front.mem
  have inWindow : x ∈ s'.window → x ∈ s.window := within.window.mem
  have inRest : x ∈ s'.rest → x ∈ s.rest := within.rest.mem
  have first : x ∈ s.front → x ∈ s.window → False := fun a b => apart x a x b rfl
  have second : x ∈ s.front ++ s.window → x ∈ s.rest → False := fun a b => beyond x a x b rfl
  simp only [all, List.mem_append] at second ⊢
  tauto

theorem window_eq (kept : ∀ x ∈ s.window, x ∈ s'.all) : s'.window = s.window := by
  have distinct := (List.nodup_append.mp (List.nodup_append.mp nodup).1).2.1
  exact within.window.eq_of_length_le (List.subperm_of_subset distinct fun x mem =>
    (within.mem_all nodup).2.1 mem (kept x mem)).length_le

theorem front_eq (kept : ∀ x ∈ s.front, x ∈ s'.all) : s'.front = s.front := by
  have distinct := (List.nodup_append.mp (List.nodup_append.mp nodup).1).1
  exact within.front.eq_of_length_le (List.subperm_of_subset distinct fun x mem =>
    (within.mem_all nodup).1 mem (kept x mem)).length_le

end Within

end Split

namespace Page

variable (p : Page)

/-- How many of the rows that a page keeps from the near end it keeps from the far end of them. -/
def keptFar : Nat :=
  p.last.elim p.first.toNat UInt64.toNat

theorem split_eq (rows : List α) : p.split rows =
    ⟨(rows.take p.first.toNat).rdrop p.keptFar, (rows.take p.first.toNat).rtake p.keptFar,
      rows.drop p.first.toNat⟩ := by
  unfold split keptFar
  cases p.last with
  | some last => rfl
  | none =>
    have short : (rows.take p.first.toNat).length ≤ p.first.toNat := List.length_take_le _ _
    simp only [Option.elim_none]
    rw [rtake_of_length_le short, List.rdrop, Nat.sub_eq_zero_of_le short, List.take_zero]

theorem split_all (rows : List α) : (p.split rows).all = rows := by
  rw [split_eq, Split.all, rdrop_append_rtake, List.take_append_drop]

/-- A list that is not longer than a page keeps has its last rows for a window. -/
theorem split_window_of_length_le {rows : List α} (short : rows.length ≤ p.first.toNat) :
    (p.split rows).window = rows.rtake p.keptFar := by
  rw [split_eq, List.take_of_length_le short]

theorem length_split_near (rows : List α) :
    ((p.split rows).front ++ (p.split rows).window).length = min p.first.toNat rows.length := by
  rw [split_eq, rdrop_append_rtake, List.length_take]

theorem length_split_window {rows : List α} (some : (p.split rows).front ≠ []) :
    (p.split rows).window.length = p.keptFar := by
  rw [split_eq] at some ⊢
  simp only [List.rdrop, List.rtake, List.length_drop, ne_eq, List.take_eq_nil_iff] at some ⊢
  omega

section

variable {rows : List α} {left : Split α} (within : left.Within (p.split rows))
  (short : rows.length ≤ p.first.toNat + 1)
include within

/-- Where the row beyond the window is gone, the window is cut out of the others. -/
theorem window_of_rest_nil (none : left.rest = []) :
    (p.split left.all).window = (left.front ++ left.window).rtake p.keptFar := by
  have shorter := (within.front.append within.window).length_le
  rw [length_split_near] at shorter
  rw [Split.all, none, List.append_nil, split_window_of_length_le]
  omega

/-- Where nothing before the row beyond the window is gone, the window stays. -/
theorem window_of_near_eq (front : left.front = (p.split rows).front)
    (window : left.window = (p.split rows).window) :
    (p.split left.all).window = (p.split rows).window := by
  have near : (left.all).take p.first.toNat = rows.take p.first.toNat := by
    have rest := within.rest
    rw [Split.all, front, window]
    rw [split_eq] at rest ⊢
    simp only [rdrop_append_rtake] at rest ⊢
    rcases Nat.lt_or_ge p.first.toNat rows.length with more | all
    · have full : (rows.take p.first.toNat).length = p.first.toNat := by
        rw [List.length_take]
        omega
      exact List.take_left' full
    · rw [List.drop_eq_nil_of_le all, List.sublist_nil] at rest
      rw [rest, List.append_nil, List.take_take, Nat.min_self]
  rw [split_eq, near, split_eq p rows]

include short

/-- Where a row before the one beyond the window is gone, that one moves up. -/
theorem window_of_shorter (gone : (left.front ++ left.window).length <
    ((p.split rows).front ++ (p.split rows).window).length) :
    (p.split left.all).window = left.all.rtake p.keptFar := by
  apply split_window_of_length_le
  have rest := within.rest.length_le
  rw [length_split_near] at gone
  simp only [split_eq, List.length_drop] at rest
  rw [Split.all, List.length_append]
  omega

variable (nodup : (p.split rows).all.Nodup)
include nodup

/-- The row beyond the window comes into it, if it moves up and there is a window. -/
theorem near_eq_of_subset (inside : ∀ x ∈ (p.split left.all).window, x ∈ (p.split rows).window)
    (some : (p.split left.all).window ≠ []) (more : left.rest ≠ []) :
    left.front = (p.split rows).front ∧ left.window = (p.split rows).window := by
  by_contra gone
  have positive : 0 < p.keptFar := by
    by_contra zero
    rw [split_eq] at some
    exact some (by simp [List.rtake, Nat.eq_zero_of_not_pos zero])
  have reach : left.rest.getLast more ∈ (p.split left.all).window := by
    have last := getLast_mem_rtake []
      (List.append_ne_nil_of_right_ne_nil (left.front ++ left.window) more) positive
    rw [p.window_of_shorter within short (within.length_lt gone)]
    rwa [List.append_nil, List.getLast_append_of_ne_nil _ more] at last
  exact (List.nodup_append.mp nodup).2.2 _ (List.mem_append_right _ (inside _ reach)) _
    (within.rest.mem (List.getLast_mem more)) rfl

/-- So does the last row in front of the window, if the window has become too short. -/
theorem window_eq_of_subset (inside : ∀ x ∈ (p.split left.all).window, x ∈ (p.split rows).window)
    (some : (p.split left.all).window ≠ []) (before : left.front ≠ []) :
    left.window = (p.split rows).window := by
  by_contra gone
  have none : left.rest = [] := by_contra fun more =>
    gone (p.near_eq_of_subset within short nodup inside some more).2
  obtain ⟨x, mem⟩ := List.exists_mem_of_ne_nil _ before
  have shorter : left.window.length < p.keptFar := by
    rw [← p.length_split_window (List.ne_nil_of_mem (within.front.mem mem))]
    exact lt_of_le_of_ne within.window.length_le
      fun same => gone (within.window.eq_of_length same)
  have reach := getLast_mem_rtake left.window before shorter
  rw [← p.window_of_rest_nil within none] at reach
  exact (List.nodup_append.mp (List.nodup_append.mp nodup).1).2.2 _
    (within.front.mem (List.getLast_mem before)) _ (inside _ reach) rfl

omit short nodup in
/-- Where no row can move up to it, the window has no other rows. -/
theorem window_subset_of_eq (near : left.rest ≠ [] → left.front = (p.split rows).front ∧
      left.window = (p.split rows).window)
    (window : left.front ≠ [] → left.window = (p.split rows).window) :
    ∀ x ∈ (p.split left.all).window, x ∈ (p.split rows).window := by
  by_cases more : left.rest = []
  · rw [p.window_of_rest_nil within more]
    by_cases before : left.front = []
    · rw [before, List.nil_append]
      exact fun x mem => within.window.mem (List.mem_of_mem_drop mem)
    · obtain ⟨x, mem⟩ := List.exists_mem_of_ne_nil _ before
      rw [window before, rtake_append_of_length_eq _
        (p.length_split_window (List.ne_nil_of_mem (within.front.mem mem)))]
      exact fun _ mem => mem
  · obtain ⟨front, window⟩ := near more
    rw [p.window_of_near_eq within front window]
    exact fun _ mem => mem

end

/-- Taking rows out of what has been fetched brings no other rows into the window exactly where
nothing is left of it, or where no row before the one fetched beyond the window is gone as long as
that one is left, and none of the window as long as one in front of it is left. -/
theorem window_subset_iff {rows kept : List α} (nodup : rows.Nodup)
    (short : rows.length ≤ p.first.toNat + 1) (sub : kept.Sublist rows) :
    (∀ x ∈ (p.split kept).window, x ∈ (p.split rows).window) ↔
      (p.split kept).window = [] ∨
        ((∃ x ∈ (p.split rows).rest, x ∈ kept) →
          ∀ x ∈ (p.split rows).front ++ (p.split rows).window, x ∈ kept) ∧
        ((∃ x ∈ (p.split rows).front, x ∈ kept) → ∀ x ∈ (p.split rows).window, x ∈ kept) := by
  rw [← p.split_all rows] at sub nodup
  obtain ⟨left, rfl, within⟩ := Split.exists_within sub
  constructor
  · intro inside
    by_cases some : (p.split left.all).window = []
    · exact Or.inl some
    refine Or.inr ⟨?_, ?_⟩
    · rintro ⟨x, memR, kept⟩ y mem
      have more := List.ne_nil_of_mem ((within.mem_all nodup).2.2 memR kept)
      obtain ⟨front, window⟩ := p.near_eq_of_subset within short nodup inside some more
      rw [← front, ← window] at mem
      exact List.mem_append_left _ mem
    · rintro ⟨x, memF, kept⟩ y mem
      have before := List.ne_nil_of_mem ((within.mem_all nodup).1 memF kept)
      rw [← p.window_eq_of_subset within short nodup inside some before] at mem
      exact List.mem_append_left _ (List.mem_append_right _ mem)
  · rintro (none | ⟨first, second⟩)
    · simp [none]
    refine p.window_subset_of_eq within (fun more => ?_) fun before => ?_
    · obtain ⟨r, mem⟩ := List.exists_mem_of_ne_nil _ more
      have all := first ⟨r, within.rest.mem mem, List.mem_append_right _ mem⟩
      exact ⟨within.front_eq nodup fun x mem => all x (List.mem_append_left _ mem),
        within.window_eq nodup fun x mem => all x (List.mem_append_right _ mem)⟩
    · obtain ⟨x, mem⟩ := List.exists_mem_of_ne_nil _ before
      exact within.window_eq nodup (second ⟨x, within.front.mem mem,
        List.mem_append_left _ (List.mem_append_left _ mem)⟩)

end Page

end EntityGraph
