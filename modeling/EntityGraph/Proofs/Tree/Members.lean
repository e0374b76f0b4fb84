import EntityGraph.Proofs.Model.Basic
import EntityGraph.Tree.Nesting

/-!
# Reading the members of a node

What is read at a slot depends on what its field stands for: a scalar is the document of the value
that the rows share, a link is what it shows for the nodes of the groups behind it. The members of
a node are read one after the other, and a record is a node with its cursor.
-/
namespace EntityGraph.Nesting

open Error (Only)

variable {m : Model} {e : Entity m.size} {rows : List Row} {f : Field m.size}

/-! ## One member -/

theorem member_scalar {s : Scalar} (store : f.store = .scalar s) (i : Nat) :
    member m e f rows (.scalar i) = s.decode (shared rows i) := by
  unfold member
  rw [Field.scalar_eq_ok.mpr store]
  rfl

theorem member_link {link : Link m.size} (store : f.store = .link link) (keys : List Nat)
    (slots : List (String × Slot)) : member m e f rows (.nested keys slots) =
      (Group.groups (valuesAt (Layout.identity keys slots)) rows).mapM
        (fun group => Json.object <$> members m (m.get link.target) group slots) >>=
      linked e.name f.name link.cardinality.toMany := by
  unfold member
  rw [Field.link_eq_ok.mpr store]
  rfl

/-- A slot that does not suit its field is a fault of the request. -/
theorem invalid_of_member_scalar {link : Link m.size} (store : f.store = .link link) {i : Nat}
    {err : Error} (failed : member m e f rows (.scalar i) = .error err) :
    err.isValidation = true := by
  unfold member Field.scalar at failed
  rw [store] at failed
  cases failed
  rfl

theorem invalid_of_member_nested {s : Scalar} (store : f.store = .scalar s) {keys : List Nat}
    {slots : List (String × Slot)} {err : Error}
    (failed : member m e f rows (.nested keys slots) = .error err) : err.isValidation = true := by
  unfold member Field.link at failed
  rw [store] at failed
  cases failed
  rfl

theorem member_link_eq_ok {link : Link m.size} (store : f.store = .link link) {keys : List Nat}
    {slots : List (String × Slot)} {v : Json} :
    member m e f rows (.nested keys slots) = .ok v ↔ ∃ children,
      (Group.groups (valuesAt (Layout.identity keys slots)) rows).mapM
        (fun group => Json.object <$> members m (m.get link.target) group slots) = .ok children ∧
      linked e.name f.name link.cardinality.toMany children = .ok v := by
  rw [member_link store, Outcome.bind_eq_ok]

/-- A link to many shows all its children, one to one the only child or null. -/
theorem linked_eq_ok {owner field : String} {toMany : Bool} {children : List Json} {v : Json} :
    linked owner field toMany children = .ok v ↔ toMany = true ∧ v = .array children ∨
      toMany = false ∧ (children = [] ∧ v = .null ∨ children = [v]) := by
  unfold linked
  cases toMany with
  | true => simp [eq_comm]
  | false =>
    match children with
    | [] => simp [eq_comm]
    | [_] => simp
    | _ :: _ :: _ => simp

/-- What a link shows cannot fail unless it is to one and has several children. -/
theorem only_linked {way : Error → Prop} {owner field : String} {toMany : Bool}
    {children : List Json} (several : toMany = false → 1 < children.length →
      way (.cardinality (.link owner field children.length))) :
    Only way (linked owner field toMany children) := by
  unfold linked
  cases toMany with
  | true => exact .ok _
  | false =>
    match children, several with
    | [], _ => exact .ok _
    | [_], _ => exact .ok _
    | _ :: _ :: rest, several => exact .error (several rfl (by simp))

theorem only_member_link {way : Error → Prop} {link : Link m.size} (store : f.store = .link link)
    {keys : List Nat} {slots : List (String × Slot)}
    (nodes : ∀ group ∈ Group.groups (valuesAt (Layout.identity keys slots)) rows,
      Only way (members m (m.get link.target) group slots))
    (several : link.cardinality.toMany = false →
      1 < (Group.groups (valuesAt (Layout.identity keys slots)) rows).length →
      way (.cardinality (.link e.name f.name
        (Group.groups (valuesAt (Layout.identity keys slots)) rows).length))) :
    Only way (member m e f rows (.nested keys slots)) := by
  rw [member_link store]
  refine .bind (.mapM fun group mem => .map _ (nodes group mem)) fun children read => ?_
  refine only_linked fun one more => ?_
  rw [← (Outcome.mapM_eq_ok.mp read).length_eq] at more ⊢
  exact several one more

/-! ## The members of a node -/

theorem members_nil : members m e rows [] = .ok [] := by
  unfold members
  rfl

theorem members_cons {name : String} {slot : Slot} {slots : List (String × Slot)}
    (found : e.field? name = some f) : members m e rows ((name, slot) :: slots) = do
      let v ← member m e f rows slot
      let more ← members m e rows slots
      return (name, v) :: more := by
  rw [members, Entity.field_eq_ok.mpr found]
  rfl

/-- So is a slot whose field is not known. -/
theorem invalid_of_members_cons {name : String} {slot : Slot} {slots : List (String × Slot)}
    (unknown : e.field? name = none) {err : Error}
    (failed : members m e rows ((name, slot) :: slots) = .error err) :
    err.isValidation = true := by
  rw [members, Entity.field, unknown] at failed
  cases failed
  rfl

theorem members_cons_eq_ok {name : String} {slot : Slot} {slots : List (String × Slot)}
    {node : List (String × Json)} : members m e rows ((name, slot) :: slots) = .ok node ↔
      ∃ f v more, e.field? name = some f ∧ member m e f rows slot = .ok v ∧
        members m e rows slots = .ok more ∧ node = (name, v) :: more := by
  constructor
  · intro ok
    rw [members] at ok
    obtain ⟨f, found, ok⟩ := Outcome.bind_eq_ok.mp ok
    obtain ⟨v, here, ok⟩ := Outcome.bind_eq_ok.mp ok
    obtain ⟨more, rest, ok⟩ := Outcome.bind_eq_ok.mp ok
    exact ⟨f, v, more, Entity.field_eq_ok.mp found, here, rest, (Outcome.pure_eq_ok.mp ok).symm⟩
  · rintro ⟨f, v, more, found, here, rest, rfl⟩
    rw [members_cons found]
    exact Outcome.bind_eq_ok.mpr ⟨v, here, Outcome.bind_eq_ok.mpr ⟨more, rest, rfl⟩⟩

/-- Members are read one by one. -/
theorem members_eq_ok {slots : List (String × Slot)} {value : String → Json}
    (each : ∀ name slot, (name, slot) ∈ slots → ∃ f, e.field? name = some f ∧
      member m e f rows slot = .ok (value name)) :
    members m e rows slots = .ok (slots.map fun s => (s.1, value s.1)) := by
  induction slots with
  | nil => exact members_nil
  | cons s slots ih =>
    obtain ⟨name, slot⟩ := s
    obtain ⟨f, found, here⟩ := each name slot List.mem_cons_self
    have rest := ih fun name slot mem => each name slot (List.mem_cons_of_mem _ mem)
    exact members_cons_eq_ok.mpr ⟨f, _, _, found, here, rest, rfl⟩

/-- Members that have been read are those of the slots. -/
theorem exists_of_members_eq_ok {slots : List (String × Slot)} {node : List (String × Json)}
    (ok : members m e rows slots = .ok node) : node.map Prod.fst = slots.map Prod.fst ∧
      ∀ name slot, (name, slot) ∈ slots → ∃ f v, e.field? name = some f ∧
        member m e f rows slot = .ok v ∧ (name, v) ∈ node := by
  induction slots generalizing node with
  | nil =>
    rw [members_nil] at ok
    cases ok
    exact ⟨rfl, fun _ _ mem => by cases mem⟩
  | cons s slots ih =>
    obtain ⟨name, slot⟩ := s
    obtain ⟨f, v, more, found, here, rest, rfl⟩ := members_cons_eq_ok.mp ok
    obtain ⟨names, each⟩ := ih rest
    refine ⟨by rw [List.map_cons, List.map_cons, names], fun name' slot' mem => ?_⟩
    rcases List.mem_cons.mp mem with same | later
    · cases same
      exact ⟨f, v, found, here, List.mem_cons_self⟩
    · obtain ⟨f', v', found', here', inside⟩ := each name' slot' later
      exact ⟨f', v', found', here', List.mem_cons_of_mem _ inside⟩

theorem only_members_cons {way : Error → Prop} {name : String} {slot : Slot}
    {slots : List (String × Slot)} (found : e.field? name = some f)
    (first : Only way (member m e f rows slot)) (rest : Only way (members m e rows slots)) :
    Only way (members m e rows ((name, slot) :: slots)) := by
  rw [members_cons found]
  exact .bind first fun v _ => .bind rest fun more _ => .ok _

theorem only_members {way : Error → Prop} {slots : List (String × Slot)}
    (each : ∀ name slot, (name, slot) ∈ slots → ∃ f, e.field? name = some f ∧
      Only way (member m e f rows slot)) : Only way (members m e rows slots) := by
  induction slots with
  | nil =>
    rw [members_nil]
    exact .ok _
  | cons s slots ih =>
    obtain ⟨f, found, here⟩ := each s.1 s.2 List.mem_cons_self
    exact only_members_cons found here
      (ih fun name slot mem => each name slot (List.mem_cons_of_mem _ mem))

/-! ## Records -/

variable {layout : Layout} {cursor : List Nat}

theorem record_eq_ok {node : List (String × Json)}
    (read : members m e rows layout.slots = .ok node) :
    record m e layout cursor rows = .ok ⟨node, cursor.map (shared rows)⟩ := by
  unfold record
  rw [read]
  rfl

theorem exists_of_record_eq_ok {r : Record} (ok : record m e layout cursor rows = .ok r) :
    ∃ node, members m e rows layout.slots = .ok node ∧ r = ⟨node, cursor.map (shared rows)⟩ := by
  unfold record at ok
  obtain ⟨node, read, last⟩ := Outcome.bind_eq_ok.mp ok
  exact ⟨node, read, (Outcome.pure_eq_ok.mp last).symm⟩

theorem only_record {way : Error → Prop} (node : Only way (members m e rows layout.slots)) :
    Only way (record m e layout cursor rows) :=
  .bind node fun _ _ => .ok _

end EntityGraph.Nesting
