import Mathlib.Data.List.Forall2
import EntityGraph.Error

/-!
# Steps that may fail

A sequence of steps succeeds exactly if each of them does, on what the one before it gave.
-/
namespace EntityGraph.Outcome

variable {α β ε : Type}

theorem bind_eq_ok {x : Except ε α} {f : α → Except ε β} {b : β} :
    x >>= f = .ok b ↔ ∃ a, x = .ok a ∧ f a = .ok b := by
  cases x <;> simp [bind, Except.bind]

theorem bind_eq_error {x : Except ε α} {f : α → Except ε β} {e : ε} :
    x >>= f = .error e ↔ x = .error e ∨ ∃ a, x = .ok a ∧ f a = .error e := by
  cases x <;> simp [bind, Except.bind]

theorem map_eq_ok {x : Except ε α} {f : α → β} {b : β} :
    f <$> x = .ok b ↔ ∃ a, x = .ok a ∧ f a = b := by
  cases x <;> simp [Functor.map, Except.map]

theorem pure_eq_ok {a b : α} : (pure a : Except ε α) = .ok b ↔ a = b := by
  simp [pure, Except.pure]

theorem toOption_eq_some {x : Except ε α} {a : α} : x.toOption = some a ↔ x = .ok a := by
  cases x <;> simp [Except.toOption]

theorem toBool_eq_true {x : Except ε α} : x.toBool = true ↔ ∃ a, x = .ok a := by
  cases x <;> simp [Except.toBool]

theorem lift_eq_ok {x : Except Error α} {a : α} :
    (liftM x : Except Fault α) = .ok a ↔ x = .ok a := by
  cases x <;> simp [liftM, monadLift, MonadLift.monadLift, Except.mapError]

theorem lift_eq_error {x : Except Error α} {fault : Fault} :
    (liftM x : Except Fault α) = .error fault ↔ ∃ e, x = .error e ∧ .error e = fault := by
  cases x <;> simp [liftM, monadLift, MonadLift.monadLift, Except.mapError]

/-- A traversal succeeds exactly if every element does. -/
theorem mapM_eq_ok {f : α → Except ε β} {xs : List α} {ys : List β} :
    xs.mapM f = .ok ys ↔ List.Forall₂ (fun x y => f x = .ok y) xs ys := by
  induction xs generalizing ys with
  | nil =>
    rw [List.mapM_nil, pure_eq_ok, List.forall₂_nil_left_iff]
    exact eq_comm
  | cons x xs ih =>
    rw [List.mapM_cons, bind_eq_ok, List.forall₂_cons_left_iff]
    constructor
    · rintro ⟨y, first, rest⟩
      obtain ⟨more, tail, last⟩ := bind_eq_ok.mp rest
      exact ⟨y, more, first, ih.mp tail, (pure_eq_ok.mp last).symm⟩
    · rintro ⟨y, more, first, tail, rfl⟩
      exact ⟨y, first, bind_eq_ok.mpr ⟨more, ih.mpr tail, pure_eq_ok.mpr rfl⟩⟩

/-- A traversal in which every element succeeds with what a function gives for it. -/
theorem mapM_of_ok {f : α → Except ε β} {g : α → β} {xs : List α}
    (each : ∀ x ∈ xs, f x = .ok (g x)) : xs.mapM f = .ok (xs.map g) := by
  rw [mapM_eq_ok, List.forall₂_map_right_iff, List.forall₂_same]
  exact each

theorem exists_mapM_eq_ok {f : α → Except ε β} {xs : List α}
    (each : ∀ x ∈ xs, ∃ y, f x = .ok y) : ∃ ys, xs.mapM f = .ok ys := by
  induction xs with
  | nil => exact ⟨[], rfl⟩
  | cons x xs ih =>
    obtain ⟨y, first⟩ := each x List.mem_cons_self
    obtain ⟨ys, rest⟩ := ih fun x' mem => each x' (List.mem_cons_of_mem x mem)
    exact ⟨y :: ys, mapM_eq_ok.mpr (.cons first (mapM_eq_ok.mp rest))⟩

theorem mapM_eq_some {f : α → Option β} {xs : List α} {ys : List β} :
    xs.mapM f = some ys ↔ List.Forall₂ (fun x y => f x = some y) xs ys := by
  induction xs generalizing ys with
  | nil =>
    rw [List.mapM_nil, List.forall₂_nil_left_iff]
    exact ⟨fun h => (Option.some.inj h).symm, fun h => congrArg some h.symm⟩
  | cons x xs ih =>
    rw [List.mapM_cons, List.forall₂_cons_left_iff]
    constructor
    · intro h
      obtain ⟨y, first, rest⟩ := Option.bind_eq_some_iff.mp h
      obtain ⟨more, tail, last⟩ := Option.bind_eq_some_iff.mp rest
      exact ⟨y, more, first, ih.mp tail, (Option.some.inj last).symm⟩
    · rintro ⟨y, more, first, tail, rfl⟩
      exact Option.bind_eq_some_iff.mpr ⟨y, first,
        Option.bind_eq_some_iff.mpr ⟨more, ih.mpr tail, rfl⟩⟩

/-- A traversal that fails does so at one of the elements. -/
theorem exists_of_mapM_eq_error {f : α → Except ε β} {xs : List α} {e : ε}
    (h : xs.mapM f = .error e) : ∃ x ∈ xs, f x = .error e := by
  induction xs with
  | nil => cases h
  | cons x xs ih =>
    rw [List.mapM_cons] at h
    cases first : f x with
    | error e' =>
      rw [first] at h
      cases h
      exact ⟨x, List.mem_cons_self, first⟩
    | ok y =>
      cases rest : xs.mapM f with
      | error e' =>
        rw [first, rest] at h
        cases h
        obtain ⟨x', mem, fails⟩ := ih rest
        exact ⟨x', List.mem_cons_of_mem x mem, fails⟩
      | ok ys =>
        rw [first, rest] at h
        cases h

theorem exists_of_mem_left {R : α → β → Prop} {xs : List α} {ys : List β}
    (h : List.Forall₂ R xs ys) {x : α} (mem : x ∈ xs) : ∃ y ∈ ys, R x y := by
  induction h with
  | nil => cases mem
  | cons here _ ih =>
    rcases List.mem_cons.mp mem with rfl | later
    · exact ⟨_, List.mem_cons_self, here⟩
    · obtain ⟨y, memY, related⟩ := ih later
      exact ⟨y, List.mem_cons_of_mem _ memY, related⟩

theorem exists_of_mem_right {R : α → β → Prop} {xs : List α} {ys : List β}
    (h : List.Forall₂ R xs ys) {y : β} (mem : y ∈ ys) : ∃ x ∈ xs, R x y := by
  induction h with
  | nil => cases mem
  | cons here _ ih =>
    rcases List.mem_cons.mp mem with rfl | later
    · exact ⟨_, List.mem_cons_self, here⟩
    · obtain ⟨x, memX, related⟩ := ih later
      exact ⟨x, List.mem_cons_of_mem _ memX, related⟩

/-- What is kept on the one side by what it is belongs to what is kept on the other by a mark. -/
theorem forall₂_filter_map {α β : Type} {R : α → Bool × β → Prop} {S : α → β → Prop}
    {p : α → Bool} {q : Bool × β → Bool} (kind : ∀ x y, R x y → p x = q y)
    (here : ∀ x y, R x y → p x = true → S x y.2) {xs : List α} {ys : List (Bool × β)}
    (each : List.Forall₂ R xs ys) : List.Forall₂ S (xs.filter p) ((ys.filter q).map (·.2)) := by
  have kept : List.Forall₂ R (xs.filter p) (ys.filter q) :=
    List.rel_filter (fun x y related => iff_of_eq (congrArg (· = true) (kind x y related))) each
  have passing := (List.forall₂_and_left _ _).mpr
    ⟨fun x mem => (List.mem_filter.mp mem).2, kept⟩
  rw [List.forall₂_map_right_iff]
  exact passing.imp fun x y ⟨passes, related⟩ => here x y related passes

end EntityGraph.Outcome

namespace EntityGraph

/-- Whether nothing fails but in this way. -/
def Error.Only {α : Type} (way : Error → Prop) (x : Except Error α) : Prop :=
  ∀ e, x = .error e → way e

namespace Error.Only

variable {α β : Type} {way : Error → Prop}

theorem ok (a : α) : Only way (.ok a) := by
  intro e fails
  cases fails

theorem error {e : Error} (here : way e) : Only way (.error e : Except Error α) := by
  intro e' fails
  cases fails
  exact here

theorem bind {x : Except Error α} {f : α → Except Error β} (first : Only way x)
    (rest : ∀ a, x = .ok a → Only way (f a)) : Only way (x >>= f) := by
  intro e fails
  cases outcome : x with
  | error e' =>
    rw [outcome] at fails
    cases fails
    exact first e outcome
  | ok a =>
    rw [outcome] at fails
    exact rest a outcome e fails

theorem map {x : Except Error α} (f : α → β) (only : Only way x) :
    Only way (f <$> x) := by
  rw [map_eq_pure_bind]
  exact only.bind fun a _ => .ok (f a)

theorem mapM {f : α → Except Error β} {xs : List α} (each : ∀ x ∈ xs, Only way (f x)) :
    Only way (xs.mapM f) := by
  intro e fails
  obtain ⟨x, mem, here⟩ := Outcome.exists_of_mapM_eq_error fails
  exact each x mem e here

end Error.Only

end EntityGraph
