import EntityGraph.Proofs.Plan.Drafted

/-!
# Requests that cannot be planned

A request that cannot be planned is at fault itself: it names what is not there or takes it for
something else, or it holds a cursor or a value that cannot be read.
-/
namespace EntityGraph

variable {m : Model}

/-- Whether nothing fails but where the request is at fault. -/
def Error.OnlyInvalid {α : Type} (x : Except Error α) : Prop :=
  Error.Only (fun e => e.isValidation = true) x

open Error

theorem Model.onlyInvalid_entity (m : Model) (name : String) : OnlyInvalid (m.entity name) := by
  unfold entity
  split
  · exact Only.ok _
  · exact Only.error rfl

theorem Scalar.onlyInvalid_encode (s : Scalar) (field : String) (v : Json) :
    OnlyInvalid (s.encode field v) := by
  unfold encode Codec.encodeField
  split
  · exact Only.ok _
  · split
    · exact Only.ok _
    · exact Only.error rfl

namespace Page

theorem onlyInvalid_readCursor (side : Side) (cursor : Option String) (arity : Nat) :
    OnlyInvalid (readCursor side cursor arity) := by
  unfold readCursor
  split
  · exact Only.ok _
  · refine Only.map _ ?_
    unfold Cursor.decode
    split
    · exact Only.ok _
    · exact Only.error rfl

theorem onlyInvalid_plan {n : Nat} (entity : Entity n) (params : Params) (config : Config) :
    OnlyInvalid (plan entity params config) := by
  refine Only.bind (onlyInvalid_readCursor _ _ _) fun after _ => ?_
  refine Only.bind (onlyInvalid_readCursor _ _ _) fun before _ => ?_
  split <;> exact Only.ok _

end Page

namespace Drafting

variable {α β : Type} {d : Draft m}

theorem Proper.mapM {f : α → Drafting m β} {xs : List α}
    (each : ∀ x ∈ xs, ∀ d, Proper (f x) d) (d : Draft m) : Proper (xs.mapM f) d := by
  induction xs generalizing d with
  | nil => exact .pure []
  | cons x xs ih =>
    rw [List.mapM_cons]
    refine (each x List.mem_cons_self d).bind fun y d' _ => ?_
    refine (ih (fun x mem => each x (List.mem_cons_of_mem _ mem)) d').bind fun ys d'' _ => ?_
    exact .pure _

theorem Proper.onlyInvalid {x : Drafting m α} {entity : Entity m.size}
    (proper : Proper x (Draft.start m entity)) : OnlyInvalid (runOn entity x) := by
  unfold runOn EStateM.run
  cases outcome : x (Draft.start m entity) with
  | ok a d => exact Only.ok _
  | error e d => exact Only.error (proper.invalid e d outcome)

end Drafting

namespace Plan

open Drafting

theorem onlyInvalid_filterCondition (r : Resolved m) (c : FilterClause) :
    OnlyInvalid (filterCondition r c) := by
  unfold filterCondition
  split
  · exact Only.bind (r.scalar.onlyInvalid_encode _ _) fun _ _ => Only.ok _
  · split
    · refine Only.bind (Only.mapM fun v _ => r.scalar.onlyInvalid_encode _ v) fun _ _ => ?_
      exact Only.ok _
    · exact Only.error rfl

theorem onlyInvalid_keyCondition (entity : Entity m.size) (key : List (String × Json))
    (field : Field m.size × Scalar) : OnlyInvalid (keyCondition entity key field) := by
  obtain ⟨f, s⟩ := field
  unfold keyCondition
  simp only
  split
  · exact Only.error rfl
  · exact Only.bind (s.onlyInvalid_encode _ _) fun _ _ => Only.ok _

theorem proper_draftFilter (c : FilterClause) (d : Draft m) : Proper (draftFilter c) d := by
  refine (proper_resolve c.field d).bind fun r d' _ => ?_
  refine Proper.bind (.lift (onlyInvalid_filterCondition r c)) fun condition d'' _ => ?_
  exact .pure _

theorem proper_draftCursor (clause : OrderClause × Nat) (d : Draft m) :
    Proper (draftCursor clause) d := by
  refine (proper_resolve clause.1.field d).bind fun r d' ok => ?_
  obtain ⟨l, has, -, -, column⟩ := resolve_has ok
  refine (Proper.project has fun c mem => ?_).bind fun _ d'' _ => .pure _
  rw [List.mem_singleton.mp mem, column]

theorem proper_draftOrder (c : OrderClause) (d : Draft m) : Proper (draftOrder c) d :=
  (proper_resolve c.field d).bind fun _ _ _ => .pure _

theorem proper_draftList (selection : List Selection) (page : Page) (d : Draft m) :
    Proper (draftList selection page) d := by
  refine (proper_select selection d).bind fun _ d _ => ?_
  refine (Proper.mapM (fun c _ => proper_draftFilter c) d).bind fun filters d _ => ?_
  refine (Proper.mapM (fun c _ => proper_draftCursor c) d).bind fun cursor d _ => ?_
  refine (Proper.mapM (fun c _ => proper_draftOrder c) d).bind fun cross d _ => ?_
  exact .pure _

/-- A lookup that cannot be planned is at fault itself. -/
theorem onlyInvalid_find (entity : Entity m.size) (key : Json) (selection : List Selection) :
    OnlyInvalid (find m entity key selection) := by
  unfold find
  split
  · refine Only.bind (proper_select selection _).onlyInvalid fun drafted _ => ?_
    refine Only.bind (Only.mapM fun f _ => onlyInvalid_keyCondition entity _ f) fun _ _ => ?_
    exact Only.ok _
  · exact Only.error rfl

/-- So is a list, unless it would ask for more rows than can be counted. -/
theorem isValidation_of_list {selection : List Selection} {params : Params} {config : Config}
    {e : Error} (failed : list m entity selection params config = .error (.error e)) :
    e.isValidation = true := by
  rcases list_eq_error.mp failed with invalid | ⟨impossible, -⟩
  · obtain ⟨e', same, page | ⟨page, -, drafting⟩⟩ := invalid
    · obtain rfl := Fault.error.inj same
      exact Page.onlyInvalid_plan entity params config e page
    · obtain rfl := Fault.error.inj same
      exact (proper_draftList selection page _).onlyInvalid e drafting
  · cases impossible

end Plan

end EntityGraph
