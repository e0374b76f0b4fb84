import EntityGraph.Proofs.FirstSeen
import EntityGraph.Tree.Group

/-!
# Groups by identity

The groups are, for every identity in the order in which it is first seen, all the rows that
have it.
-/
namespace EntityGraph.Group

variable {α β : Type}

/-- Rows join the first group if they have its identity, and the others else. -/
theorem foldl_add_cons (identity : α → List Value) (k : List Value) (ys : List α)
    (rest : List (List Value × List α)) (xs : List α) :
    xs.foldl (fun groups x => add (identity x) x groups) ((k, ys) :: rest) =
      (k, ys ++ xs.filter fun x => identity x == k) ::
        (xs.filter fun x => !identity x == k).foldl
          (fun groups x => add (identity x) x groups) rest := by
  induction xs generalizing ys rest with
  | nil => simp
  | cons x xs ih =>
    by_cases same : identity x = k
    · have first : add (identity x) x ((k, ys) :: rest) = (k, ys ++ [x]) :: rest := by
        simp [add, same]
      rw [List.foldl_cons, first, ih]
      simp [same]
    · have first : add (identity x) x ((k, ys) :: rest) =
          (k, ys) :: add (identity x) x rest := by
        have other : ¬ k = identity x := fun h => same h.symm
        simp [add, other]
      rw [List.foldl_cons, first, ih]
      simp [same]

theorem identified_cons (identity : α → List Value) (x : α) (xs : List α) :
    identified identity (x :: xs) =
      (identity x, x :: xs.filter fun y => identity y == identity x) ::
        identified identity (xs.filter fun y => !identity y == identity x) := by
  have first : identified identity (x :: xs) =
      xs.foldl (fun groups x => add (identity x) x groups) [(identity x, [x])] := rfl
  rw [first, foldl_add_cons]
  rfl

theorem identified_eq (identity : α → List Value) (xs : List α) :
    identified identity xs =
      (xs.map identity).eraseDups.map fun k => (k, xs.filter fun x => identity x == k) := by
  induction h : xs.length using Nat.strongRecOn generalizing xs with
  | ind n ih =>
    cases xs with
    | nil => rfl
    | cons x xs =>
      let others := xs.filter fun y => !identity y == identity x
      have shorter : others.length < n := by
        have bound : others.length ≤ xs.length := List.length_filter_le _ _
        simp only [List.length_cons] at h
        omega
      have ids : others.map identity = (xs.map identity).filter fun k => !k == identity x := by
        rw [List.filter_map]
        rfl
      rw [identified_cons, ih _ shorter others rfl, ids, List.map_cons, List.eraseDups_cons,
        List.map_cons]
      congr 1
      · simp
      · apply List.map_congr_left
        intro k mem
        have other : k ≠ identity x := by
          rw [FirstSeen.eraseDups_filter] at mem
          simpa using (List.mem_filter.mp mem).2
        have notFirst : ¬ identity x = k := fun h => other h.symm
        simp only [Prod.mk.injEq, true_and, others]
        rw [List.filter_cons_of_neg (by simpa using notFirst), List.filter_filter]
        apply List.filter_congr
        intro y _
        by_cases here : identity y = k
        · simp [here, other]
        · simp [here]

theorem groups_eq (identity : α → List Value) (xs : List α) :
    groups identity xs =
      ((xs.map identity).eraseDups.filter fun k => !k.all Value.isNull).map fun k =>
        xs.filter fun x => identity x == k := by
  rw [groups, identified_eq, List.filter_map, List.map_map]
  rfl

theorem groups_map (identity : β → List Value) (f : α → β) (xs : List α) :
    groups identity (xs.map f) = (groups (identity ∘ f) xs).map (List.map f) := by
  rw [groups_eq, groups_eq, List.map_map, List.map_map]
  apply List.map_congr_left
  intro k _
  rw [List.filter_map]
  rfl

/-- For every group its first row stands for it. -/
theorem exists_firsts (identity : α → List Value) (xs : List α) :
    ∃ firsts : List α, firsts.Sublist xs ∧ (firsts.map identity).Nodup ∧
      (∀ k, k ∈ firsts.map identity ↔ k ∈ xs.map identity ∧ k.all Value.isNull = false) ∧
      groups identity xs = firsts.map fun f => xs.filter fun x => identity x == identity f := by
  obtain ⟨all, sub, images⟩ := FirstSeen.exists_firsts identity xs
  have kept : (all.filter fun x => !(identity x).all Value.isNull).map identity =
      (xs.map identity).eraseDups.filter fun k => !k.all Value.isNull := by
    rw [← images, List.filter_map]
    rfl
  refine ⟨all.filter fun x => !(identity x).all Value.isNull, List.filter_sublist.trans sub, ?_,
    fun k => ?_, ?_⟩
  · rw [kept]
    exact (FirstSeen.nodup_eraseDups _).filter _
  · rw [kept, List.mem_filter, List.mem_eraseDups, Bool.not_eq_true']
  · rw [groups_eq, ← kept, List.map_map]
    rfl

/-- The groups are the rows with the same identity as some row whose identity is not null
throughout. -/
theorem mem_groups {identity : α → List Value} {xs group : List α} :
    group ∈ groups identity xs ↔ ∃ x ∈ xs, (identity x).all Value.isNull = false ∧
      group = xs.filter fun y => identity y == identity x := by
  rw [groups_eq, List.mem_map]
  constructor
  · rintro ⟨k, mem, rfl⟩
    obtain ⟨seen, filled⟩ := List.mem_filter.mp mem
    obtain ⟨x, memX, rfl⟩ := List.mem_map.mp (List.mem_eraseDups.mp seen)
    exact ⟨x, memX, by simpa using filled, rfl⟩
  · rintro ⟨x, memX, filled, rfl⟩
    refine ⟨identity x, List.mem_filter.mpr ⟨List.mem_eraseDups.mpr ?_, by simp [filled]⟩, rfl⟩
    exact List.mem_map_of_mem memX

/-- A group has a first row, and all its rows are among those that have been grouped. -/
theorem exists_cons_of_mem_groups {identity : α → List Value} {xs group : List α}
    (mem : group ∈ groups identity xs) : ∃ x rest, group = x :: rest ∧ ∀ y ∈ group, y ∈ xs := by
  obtain ⟨x, memX, -, rfl⟩ := mem_groups.mp mem
  have inside : x ∈ xs.filter fun y => identity y == identity x :=
    List.mem_filter.mpr ⟨memX, by simp⟩
  obtain ⟨first, rest, whole⟩ := List.exists_cons_of_ne_nil (List.ne_nil_of_mem inside)
  exact ⟨first, rest, whole, fun y => List.mem_of_mem_filter⟩

/-- Rows whose identities are null throughout make no group. -/
theorem groups_of_null {identity : α → List Value} {xs : List α}
    (null : ∀ x ∈ xs, (identity x).all Value.isNull = true) : groups identity xs = [] := by
  rw [List.eq_nil_iff_forall_not_mem]
  intro group mem
  obtain ⟨x, memX, filled, -⟩ := mem_groups.mp mem
  rw [null x memX] at filled
  cases filled

/-- Of things with distinct keys one has a key. -/
theorem flatMap_ite_of_nodup {things : List β} {key : β → List Value} (rows : β → List α)
    (distinct : (things.map key).Nodup) {x : β} (mem : x ∈ things) :
    (things.flatMap fun y => if key y = key x then rows y else []) = rows x := by
  induction things with
  | nil => cases mem
  | cons y things ih =>
    obtain ⟨fresh, rest⟩ := List.nodup_cons.mp distinct
    rw [List.flatMap_cons]
    rcases List.mem_cons.mp mem with rfl | mem
    · have others : (things.flatMap fun y => if key y = key x then rows y else []) = [] := by
        rw [List.flatMap_eq_nil_iff]
        intro y inside
        refine if_neg fun same => fresh ?_
        rw [← same]
        exact List.mem_map_of_mem inside
      rw [if_pos rfl, others, List.append_nil]
    · have other : key y ≠ key x := fun same => fresh (by rw [same]; exact List.mem_map_of_mem mem)
      rw [if_neg other, List.nil_append, ih rest mem]

/-- Where each of several things has rows of its own identity, which is not null throughout, the
rows of them all fall apart into the rows of each. -/
theorem groups_flatMap {identity : α → List Value} {rows : β → List α} {key : β → List Value}
    {things : List β} (own : ∀ x ∈ things, ∀ r ∈ rows x, identity r = key x)
    (some : ∀ x ∈ things, rows x ≠ []) (filled : ∀ x ∈ things, (key x).all Value.isNull = false)
    (distinct : (things.map key).Nodup) :
    groups identity (things.flatMap rows) = things.map rows := by
  have ids : ((things.flatMap rows).map identity).eraseDups = things.map key := by
    rw [List.map_flatMap, FirstSeen.eraseDups_flatMap (fun x mem => by simpa using some x mem),
      FirstSeen.eraseDups_of_nodup distinct]
    intro x mem id seen
    obtain ⟨r, here, rfl⟩ := List.mem_map.mp seen
    exact own x mem r here
  have kept : (things.map key).filter (fun k => !k.all Value.isNull) = things.map key := by
    rw [List.filter_eq_self]
    intro k mem
    obtain ⟨x, inside, rfl⟩ := List.mem_map.mp mem
    simp [filled x inside]
  have each : ∀ x, ∀ y ∈ things, (rows y).filter (fun r => identity r == key x) =
      if key y = key x then rows y else [] := by
    intro x y inside
    by_cases same : key y = key x
    · rw [if_pos same, List.filter_eq_self]
      intro r here
      simp [own y inside r here, same]
    · rw [if_neg same, List.filter_eq_nil_iff]
      intro r here
      simp [own y inside r here, same]
  rw [groups_eq, ids, kept, List.map_map]
  apply List.map_congr_left
  intro x mem
  change (things.flatMap rows).filter (fun r => identity r == key x) = rows x
  rw [List.filter_flatMap, List.flatMap_congr (each x), flatMap_ite_of_nodup rows distinct mem]

/-- Lists whose images are first seen in one order have groups of which the same holds. -/
theorem groups_of_seen {γ : Type} [BEq γ] [LawfulBEq γ] {f : α → γ} {g : β → γ} {xs : List α}
    {ys : List β} (h : γ → List Value) (seen : (xs.map f).eraseDups = (ys.map g).eraseDups) :
    List.Forall₂ (fun group group' => (group.map f).eraseDups = (group'.map g).eraseDups)
      (groups (h ∘ f) xs) (groups (h ∘ g) ys) := by
  have ids : (xs.map (h ∘ f)).eraseDups = (ys.map (h ∘ g)).eraseDups := by
    rw [← List.map_map, ← List.map_map, ← FirstSeen.eraseDups_map_eraseDups, seen,
      FirstSeen.eraseDups_map_eraseDups]
  rw [groups_eq, groups_eq, ids, List.forall₂_map_left_iff, List.forall₂_map_right_iff,
    List.forall₂_same]
  intro k _
  have chosen : ∀ {δ : Type} (image : δ → γ) (zs : List δ),
      ((zs.filter fun z => (h ∘ image) z == k).map image).eraseDups =
        (zs.map image).eraseDups.filter fun c => h c == k := by
    intro δ image zs
    rw [← FirstSeen.eraseDups_filter, List.filter_map]
    rfl
  rw [chosen, chosen, seen]

/-- Rows with one identity make one group. -/
theorem groups_of_same {identity : α → List Value} {xs : List α} {k : List Value}
    (same : ∀ x ∈ xs, identity x = k) (some : xs ≠ []) (filled : k.all Value.isNull = false) :
    groups identity xs = [xs] := by
  obtain ⟨x, rest, rfl⟩ := List.exists_cons_of_ne_nil some
  have ids : ((x :: rest).map identity).eraseDups = [k] := by
    have constant : (x :: rest).map identity = List.replicate (rest.length + 1) k := by
      rw [List.eq_replicate_iff]
      refine ⟨by simp, fun id mem => ?_⟩
      obtain ⟨y, memY, rfl⟩ := List.mem_map.mp mem
      exact same y memY
    have again : (List.replicate rest.length k).filter (fun id => !id == k) = [] := by
      rw [List.filter_eq_nil_iff]
      intro id mem
      simp [List.eq_of_mem_replicate mem]
    rw [constant, List.replicate_succ, List.eraseDups_cons, again]
    rfl
  have all : (x :: rest).filter (fun y => identity y == k) = x :: rest := by
    rw [List.filter_eq_self]
    intro y mem
    simp [same y mem]
  rw [groups_eq, ids, List.filter_cons_of_pos (by simp [filled]), List.filter_nil,
    List.map_cons, List.map_nil, all]

end EntityGraph.Group
