import Mathlib.Data.List.Nodup

/-!
# Elements in the order in which they are first seen

Dropping what has been seen before commutes with choosing elements, and it does not matter for
the order of their images whether it is done once more in between.
-/
namespace EntityGraph.FirstSeen

variable {α β : Type}

/-- Two choices one after the other, in either order. -/
theorem filter_comm (p q : α → Bool) (xs : List α) :
    (xs.filter p).filter q = (xs.filter q).filter p := by
  rw [List.filter_filter, List.filter_filter]
  congr 1
  funext x
  exact Bool.and_comm _ _

section

variable [BEq α] [LawfulBEq α]

theorem eraseDups_filter (p : α → Bool) (xs : List α) :
    (xs.filter p).eraseDups = xs.eraseDups.filter p := by
  induction h : xs.length using Nat.strongRecOn generalizing xs with
  | ind n ih =>
    cases xs with
    | nil => rfl
    | cons a as =>
      have shorter : (as.filter fun b => !b == a).length < n := by
        have bound := List.length_filter_le (fun b => !b == a) as
        simp only [List.length_cons] at h
        omega
      have rest := ih _ shorter (as.filter fun b => !b == a) rfl
      rw [List.eraseDups_cons]
      cases keep : p a with
      | true =>
        rw [List.filter_cons_of_pos keep, List.eraseDups_cons, List.filter_cons_of_pos keep,
          ← rest, filter_comm]
      | false =>
        have drop : ¬ p a = true := by simp [keep]
        rw [List.filter_cons_of_neg drop, List.filter_cons_of_neg drop, ← rest, filter_comm]
        have same : (as.filter p).filter (fun b => !b == a) = as.filter p := by
          apply List.filter_eq_self.mpr
          intro b mem
          have chosen := (List.mem_filter.mp mem).2
          have other : b ≠ a := fun eq => by
            rw [eq, keep] at chosen
            cases chosen
          simp [other]
        rw [same]

theorem eraseDups_cons (a : α) (as : List α) :
    (a :: as).eraseDups = a :: as.eraseDups.filter (fun b => !b == a) := by
  rw [List.eraseDups_cons, eraseDups_filter]

theorem eraseDups_concat [DecidableEq α] (xs : List α) (x : α) :
    (xs ++ [x]).eraseDups = if x ∈ xs then xs.eraseDups else xs.eraseDups ++ [x] := by
  rw [List.eraseDups_append]
  by_cases seen : x ∈ xs
  · simp [seen, List.removeAll]
  · simp [seen, List.removeAll, List.eraseDups_cons]

theorem nodup_eraseDups (xs : List α) : xs.eraseDups.Nodup := by
  induction xs with
  | nil => exact List.nodup_nil
  | cons a as ih =>
    rw [eraseDups_cons]
    refine List.nodup_cons.mpr ⟨fun again => ?_, ih.filter _⟩
    simpa using (List.mem_filter.mp again).2

theorem eraseDups_of_nodup {xs : List α} (distinct : xs.Nodup) : xs.eraseDups = xs := by
  induction xs with
  | nil => rfl
  | cons a as ih =>
    obtain ⟨fresh, rest⟩ := List.nodup_cons.mp distinct
    rw [eraseDups_cons, ih rest]
    congr 1
    apply List.filter_eq_self.mpr
    intro b mem
    have other : b ≠ a := fun eq => fresh (eq ▸ mem)
    simp [other]

theorem filterMap_filter_ne {h : α → Option β} {a : α} (none : h a = none) (xs : List α) :
    (xs.filter fun b => !b == a).filterMap h = xs.filterMap h := by
  induction xs with
  | nil => rfl
  | cons x xs ih =>
    by_cases same : x = a
    · simp [same, none, ih]
    · simp [same, List.filterMap_cons, ih]

variable [BEq β] [LawfulBEq β]

theorem filterMap_filter_image {h : α → Option β} {a : α} {b : β} (some : h a = some b)
    (xs : List α) : ((xs.filter fun c => !c == a).filterMap h).filter (fun c => !c == b) =
      (xs.filterMap h).filter fun c => !c == b := by
  induction xs with
  | nil => rfl
  | cons x xs ih =>
    by_cases same : x = a
    · simp [same, some, ih]
    · cases image : h x with
      | none => simp [same, image, ih]
      | some c =>
        by_cases hit : c = b <;> simp [same, image, hit, ih]

/-- The images of the elements, each seen once, are first seen in the order of the images of
all elements. -/
theorem eraseDups_filterMap (h : α → Option β) (xs : List α) :
    (xs.eraseDups.filterMap h).eraseDups = (xs.filterMap h).eraseDups := by
  induction xs with
  | nil => rfl
  | cons a as ih =>
    rw [eraseDups_cons]
    cases image : h a with
    | none =>
      rw [List.filterMap_cons_none image, List.filterMap_cons_none image,
        filterMap_filter_ne image, ih]
    | some b =>
      rw [List.filterMap_cons_some image, List.filterMap_cons_some image, eraseDups_cons,
        eraseDups_cons, ← eraseDups_filter, filterMap_filter_image image, eraseDups_filter, ih]

omit [BEq α] [LawfulBEq α] in
/-- Where every element stands for one value, it does not matter how often it gives it. -/
theorem eraseDups_flatMap {f : α → List β} {g : α → β} {xs : List α}
    (some : ∀ x ∈ xs, f x ≠ []) (same : ∀ x ∈ xs, ∀ y ∈ f x, y = g x) :
    (xs.flatMap f).eraseDups = (xs.map g).eraseDups := by
  induction xs with
  | nil => rfl
  | cons x xs ih =>
    have rest := ih (fun x mem => some x (List.mem_cons_of_mem _ mem))
      fun x mem => same x (List.mem_cons_of_mem _ mem)
    have here := same x List.mem_cons_self
    obtain ⟨y, ys, image⟩ := List.exists_cons_of_ne_nil (some x List.mem_cons_self)
    rw [image] at here
    obtain rfl := here y List.mem_cons_self
    have again : ys.filter (fun b => !b == g x) = [] := by
      apply List.filter_eq_nil_iff.mpr
      intro b mem
      simp [here b (List.mem_cons_of_mem _ mem)]
    rw [List.flatMap_cons, image, List.map_cons, List.cons_append, List.eraseDups_cons,
      List.filter_append, again, List.nil_append, eraseDups_filter, rest, eraseDups_cons]

/-- So are images under a function. -/
theorem eraseDups_map_eraseDups (f : α → β) (xs : List α) :
    (xs.eraseDups.map f).eraseDups = (xs.map f).eraseDups := by
  have all := eraseDups_filterMap (fun a => some (f a)) xs
  rwa [List.filterMap_eq_map'] at all

theorem eraseDups_map {f : α → β} {xs : List α}
    (apart : ∀ a ∈ xs, ∀ b ∈ xs, f a = f b → a = b) :
    (xs.map f).eraseDups = xs.eraseDups.map f := by
  have distinct : (xs.eraseDups.map f).Nodup := by
    apply List.Nodup.map_on _ (nodup_eraseDups xs)
    intro a memA b memB same
    exact apart a (List.mem_eraseDups.mp memA) b (List.mem_eraseDups.mp memB) same
  rw [← eraseDups_map_eraseDups, eraseDups_of_nodup distinct]

/-- What is seen again changes nothing. -/
theorem eraseDups_append_of_subset {xs ys : List α} (sub : ys ⊆ xs) :
    (xs ++ ys).eraseDups = xs.eraseDups := by
  have nothing : ys.removeAll xs = [] := by
    rw [List.removeAll, List.filter_eq_nil_iff]
    intro y mem
    simpa using sub mem
  rw [List.eraseDups_append, nothing, List.eraseDups_nil, List.append_nil]

omit [BEq α] [LawfulBEq α] in
theorem eraseDups_flatMap_const {xs : List α} (some : xs ≠ []) (ys : List β) :
    (xs.flatMap fun _ => ys).eraseDups = ys.eraseDups := by
  obtain ⟨x, xs, rfl⟩ := List.exists_cons_of_ne_nil some
  rw [List.flatMap_cons]
  apply eraseDups_append_of_subset
  intro y mem
  obtain ⟨_, -, here⟩ := List.mem_flatMap.mp mem
  exact here

omit [BEq α] [LawfulBEq α] in
/-- Of all elements with the same image one comes first. -/
theorem exists_firsts (f : α → β) (xs : List α) :
    ∃ firsts : List α, firsts.Sublist xs ∧ firsts.map f = (xs.map f).eraseDups := by
  induction xs with
  | nil => exact ⟨[], List.Sublist.refl _, rfl⟩
  | cons x xs ih =>
    obtain ⟨firsts, sub, images⟩ := ih
    refine ⟨x :: firsts.filter (fun y => !f y == f x), ?_, ?_⟩
    · exact (List.filter_sublist.trans sub).cons_cons x
    · rw [List.map_cons, List.map_cons, eraseDups_cons, ← images, List.filter_map]
      rfl

end

/-- What is told of elements whose images are distinct can be told of the images. -/
theorem exists_factor {γ : Type} (unseen : γ) {f : α → β} (g : α → γ) {xs : List α}
    (distinct : (xs.map f).Nodup) : ∃ h : β → γ, ∀ x ∈ xs, h (f x) = g x := by
  have each : ∀ b, ∃ c, ∀ x ∈ xs, f x = b → c = g x := by
    intro b
    by_cases some : ∃ x ∈ xs, f x = b
    · obtain ⟨x, mem, rfl⟩ := some
      refine ⟨g x, fun y memY same => ?_⟩
      rw [List.inj_on_of_nodup_map distinct memY mem same]
    · exact ⟨unseen, fun x mem same => absurd ⟨x, mem, same⟩ some⟩
  choose h told using each
  exact ⟨h, fun x mem => told (f x) x mem rfl⟩

/-- Images that tell elements apart are as distinct as the elements. -/
theorem nodup_filterMap {h : α → Option β} {xs : List α} (distinct : xs.Nodup)
    (apart : ∀ a ∈ xs, ∀ b ∈ xs, ∀ c, h a = some c → h b = some c → a = b) :
    (xs.filterMap h).Nodup := by
  induction xs with
  | nil => exact List.nodup_nil
  | cons a as ih =>
    obtain ⟨fresh, rest⟩ := List.nodup_cons.mp distinct
    have tail := ih rest fun a memA b memB =>
      apart a (List.mem_cons_of_mem _ memA) b (List.mem_cons_of_mem _ memB)
    cases image : h a with
    | none => rwa [List.filterMap_cons_none image]
    | some c =>
      rw [List.filterMap_cons_some image]
      refine List.nodup_cons.mpr ⟨fun again => ?_, tail⟩
      obtain ⟨b, mem, same⟩ := List.mem_filterMap.mp again
      have eq := apart a List.mem_cons_self b (List.mem_cons_of_mem _ mem) c image same
      exact fresh (eq ▸ mem)

end EntityGraph.FirstSeen
