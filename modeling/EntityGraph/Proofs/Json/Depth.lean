import Mathlib.Algebra.Group.Int.Defs
import EntityGraph.Proofs.Json.RoundTrip

/-!
# How deep documents may be

The writer goes as deep as the document does, the reader only so far. What lies within its limit
is read back as it was written, and what lies deeper is refused where the frame that is one too
many would open.
-/
namespace EntityGraph.Json

/-! ## Depth -/

mutual

/-- How many arrays and objects lie inside each other. -/
def depth : Json → Nat
  | .array items => depthItems items + 1
  | .object members => depthMembers members + 1
  | _ => 0

def depthItems : List Json → Nat
  | [] => 0
  | v :: rest => max v.depth (depthItems rest)

def depthMembers : List (String × Json) → Nat
  | [] => 0
  | (_, v) :: rest => max v.depth (depthMembers rest)

end

theorem depthItems_le_iff {items : List Json} {n : Nat} :
    depthItems items ≤ n ↔ ∀ v ∈ items, v.depth ≤ n := by
  induction items with
  | nil => simp [depthItems]
  | cons v rest ih => rw [depthItems, Nat.max_le, ih, List.forall_mem_cons]

theorem depthMembers_le_iff {members : List (String × Json)} {n : Nat} :
    depthMembers members ≤ n ↔ ∀ m ∈ members, m.2.depth ≤ n := by
  induction members with
  | nil => simp [depthMembers]
  | cons m rest ih => rw [depthMembers, Nat.max_le, ih, List.forall_mem_cons]

/-- A document that can be held: integers have 64 bits, with or without a sign, reals are finite
and read back, and the names of members are distinct. -/
inductive Storable : Json → Prop where
  | null : Storable .null
  | bool (b : Bool) : Storable (.bool b)
  | int {i : Int} (low : -2 ^ 63 ≤ i) (high : i < 2 ^ 64) : Storable (.number (.int i))
  | real {x : Binary64} (finite : x.isFinite = true) (reads : (Number.real x).ReadsBack) :
      Storable (.number (.real x))
  | text (s : String) : Storable (.text s)
  | array {items : List Json} (inside : ∀ v ∈ items, Storable v) : Storable (.array items)
  | object {members : List (String × Json)} (names : (members.map Prod.fst).Nodup)
      (inside : ∀ m ∈ members, Storable m.2) : Storable (.object members)

/-- With room for all its arrays and objects, a document is read as it is written. -/
theorem Storable.legible {v : Json} (storable : v.Storable) {room : Nat}
    (fits : v.depth ≤ room) : v.Legible room := by
  induction storable generalizing room with
  | null => exact .null
  | bool b => exact .bool b
  | int low high => exact .number (readsBack_int low high)
  | real finite reads => exact .number reads
  | text s => exact .text s
  | array inside ih =>
    rw [depth] at fits
    obtain ⟨rest, rfl⟩ := Nat.exists_eq_add_of_le' (Nat.le_of_add_left_le fits)
    have each := depthItems_le_iff.mp (Nat.le_of_succ_le_succ fits)
    exact .array fun v mem => ih v mem (each v mem)
  | object names inside ih =>
    rw [depth] at fits
    obtain ⟨rest, rfl⟩ := Nat.exists_eq_add_of_le' (Nat.le_of_add_left_le fits)
    have each := depthMembers_le_iff.mp (Nat.le_of_succ_le_succ fits)
    exact .object names fun m mem => ih m mem (each m mem)

/-! ## Documents that are too deep -/

/-- What is refused stays refused. -/
theorem Reader.Takes.refused {start : Reader} {front : List Token}
    (refuses : start.Takes front none) (back : List Token) :
    start.Takes (front ++ back) none := by
  intro rest
  rw [List.append_assoc, refuses]
  rfl

/-- With `opened` frames open, the tokens of the document are refused if they would open more
frames than there may be. -/
def RefusedDeep (opened : Nat) (v : Json) : Prop :=
  maxDepth < opened + v.depth →
    ∀ stack : List Frame, stack.length = opened → (⟨.value, stack⟩ : Reader).Takes v.tokens none

section Inside

variable {opened : Nat} (room : opened ≤ maxDepth)
include room

/-- With `opened` frames open, a document that still fits is delivered. -/
theorem Storable.delivered {v : Json} (storable : v.Storable) (fits : opened + v.depth ≤ maxDepth) :
    Delivered (maxDepth - opened) v :=
  Json.delivered (storable.legible (by omega))

/-- The items before the first one that is too deep are delivered, so that one is reached. -/
theorem refused_items {items : List Json} (storable : ∀ v ∈ items, v.Storable)
    (each : ∀ v ∈ items, RefusedDeep opened v) (deep : maxDepth < opened + depthItems items)
    {done : List Json} {stack : List Frame} (length : (Frame.array done :: stack).length = opened) :
    (⟨.value, .array done :: stack⟩ : Reader).Takes (itemTokens items) none := by
  induction items generalizing done with
  | nil =>
    rw [depthItems] at deep
    omega
  | cons v rest ih =>
    by_cases here : maxDepth < opened + v.depth
    · have refuses := each v List.mem_cons_self here _ length
      cases rest with
      | nil => exact refuses
      | cons w rest => exact refuses.refused _
    · have fits : opened + v.depth ≤ maxDepth := Nat.le_of_not_lt here
      have delivers := (storable v List.mem_cons_self).delivered room fits
        (Frame.array done :: stack) (by omega)
      rw [depthItems] at deep
      cases rest with
      | nil =>
        rw [depthItems] at deep
        omega
      | cons w rest =>
        rw [itemTokens]
        refine delivers.append (Reader.Takes.cons rfl ?_)
        exact ih (fun u mem => storable u (List.mem_cons_of_mem _ mem))
          (fun u mem => each u (List.mem_cons_of_mem _ mem)) (by omega) length

theorem refused_members {members : List (String × Json)} (storable : ∀ m ∈ members, m.2.Storable)
    (each : ∀ m ∈ members, RefusedDeep opened m.2)
    (deep : maxDepth < opened + depthMembers members) {done : List (String × Json)}
    {stack : List Frame} (length : (Frame.object done :: stack).length = opened) :
    (⟨.name, .object done :: stack⟩ : Reader).Takes (memberTokens members) none := by
  induction members generalizing done with
  | nil =>
    rw [depthMembers] at deep
    omega
  | cons m rest ih =>
    obtain ⟨name, v⟩ := m
    have inner : (Frame.member done name :: stack).length = opened := length
    by_cases here : maxDepth < opened + v.depth
    · have refuses := each _ List.mem_cons_self here _ inner
      cases rest with
      | nil => exact Reader.Takes.cons rfl (Reader.Takes.cons rfl refuses)
      | cons next rest => exact Reader.Takes.cons rfl (Reader.Takes.cons rfl (refuses.refused _))
    · have fits : opened + v.depth ≤ maxDepth := Nat.le_of_not_lt here
      have delivers := (storable _ List.mem_cons_self).delivered room fits
        (Frame.member done name :: stack) (by omega)
      rw [depthMembers] at deep
      cases rest with
      | nil =>
        rw [depthMembers] at deep
        omega
      | cons next rest =>
        rw [memberTokens]
        refine Reader.Takes.cons rfl (Reader.Takes.cons rfl
          (delivers.append (Reader.Takes.cons rfl ?_)))
        exact ih (fun m mem => storable m (List.mem_cons_of_mem _ mem))
          (fun m mem => each m (List.mem_cons_of_mem _ mem)) (by omega) length

end Inside

/-- An array or object is refused at once where no frame may open, and otherwise where its tokens
inside the frame are. -/
theorem refused_frame {stack : List Frame} {t : Token} {expected : Expected} {frame : Frame}
    {inside : List Token} (opens : acceptValue stack t = openFrame expected frame stack)
    (refuses : stack.length < maxDepth →
      (⟨expected, frame :: stack⟩ : Reader).Takes inside none) :
    (⟨.value, stack⟩ : Reader).Takes (t :: inside) none := by
  have accepts : (⟨.value, stack⟩ : Reader).accept t = openFrame expected frame stack := opens
  by_cases room : stack.length < maxDepth
  · rw [openFrame, if_pos room] at accepts
    exact Reader.Takes.cons accepts (refuses room)
  · rw [openFrame, if_neg room] at accepts
    exact (Reader.takes_one accepts).refused inside

/-- A document that is deeper than the room that is left is refused. -/
theorem Storable.refusedDeep {v : Json} (storable : v.Storable) {opened : Nat}
    (room : opened ≤ maxDepth) : RefusedDeep opened v := by
  rintro deep stack rfl
  induction storable generalizing stack with
  | null | bool | int | real | text => exact absurd room (Nat.not_le.mpr deep)
  | @array items inside ih =>
    rw [depth] at deep
    refine refused_frame rfl fun more => ?_
    cases items with
    | nil =>
      rw [depthItems] at deep
      omega
    | cons v rest =>
      have length : (Frame.array [] :: stack).length = stack.length + 1 := rfl
      have each : ∀ w ∈ v :: rest, RefusedDeep (stack.length + 1) w := by
        intro w mem deeper inner same
        exact ih w mem inner (by omega) (by omega)
      have refuses := refused_items more inside each (by omega) length
      intro tail
      rw [run_valueOrClose]
      exact refuses.refused _ tail
  | @object members names inside ih =>
    rw [depth] at deep
    refine refused_frame rfl fun more => ?_
    cases members with
    | nil =>
      rw [depthMembers] at deep
      omega
    | cons m rest =>
      have length : (Frame.object [] :: stack).length = stack.length + 1 := rfl
      have each : ∀ w ∈ m :: rest, RefusedDeep (stack.length + 1) w.2 := by
        intro w mem deeper inner same
        exact ih w mem inner (by omega) (by omega)
      have refuses := refused_members more inside each (by omega) length
      intro tail
      rw [run_nameOrClose]
      exact refuses.refused _ tail

/-! ## The limit -/

/-- What is read from the text of a document is the document, or nothing if it is too deep. -/
theorem Storable.parse?_write {v : Json} (storable : v.Storable) :
    parse? v.write = if v.depth ≤ maxDepth then some v else none := by
  split
  · rename_i fits
    exact Json.parse?_write (storable.legible fits)
  · rename_i deep
    have refuses := storable.refusedDeep (Nat.zero_le maxDepth) (by omega) [] rfl []
    rw [List.append_nil] at refuses
    rw [parse?, scan_of_scansTo (scansTo_write (storable.legible le_rfl))]
    exact refuses

end EntityGraph.Json
