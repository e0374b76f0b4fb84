import EntityGraph.Model.Basic
import EntityGraph.Proofs.Keyed
import EntityGraph.Proofs.Outcome
import EntityGraph.Proofs.Path

/-!
# Fields of an entity

Fields are found under their names. Names are plain where they can stand in paths and are not
taken for the names that are reserved there.
-/
namespace EntityGraph

theorem Field.scalar_eq_ok {n : Nat} {f : Field n} {s : Scalar} :
    f.scalar = .ok s ↔ f.store = .scalar s := by
  unfold scalar
  cases f.store <;> simp

/-- A field that is asked for as a scalar and is none is at fault in the request. -/
theorem Field.invalid_of_scalar {n : Nat} {f : Field n} {e : Error}
    (failed : f.scalar = .error e) : e.isValidation = true := by
  unfold scalar at failed
  split at failed
  · cases failed
  · cases failed
    rfl

theorem Field.link_eq_ok {n : Nat} {f : Field n} {l : Link n} :
    f.link = .ok l ↔ f.store = .link l := by
  unfold link
  cases f.store <;> simp

namespace Entity

variable {n : Nat} {e : Entity n}

theorem field_eq_ok {name : String} {f : Field n} :
    e.field name = .ok f ↔ e.field? name = some f := by
  unfold field
  cases e.field? name <;> simp

/-- So is a name that no field has. -/
theorem invalid_of_field {name : String} {err : Error} (failed : e.field name = .error err) :
    err.isValidation = true := by
  unfold field at failed
  split at failed
  · cases failed
  · cases failed
    rfl

theorem name_of_field? {name : String} {f : Field n} (h : e.field? name = some f) :
    f.name = name :=
  Keyed.key_of_get? h

theorem mem_of_field? {name : String} {f : Field n} (h : e.field? name = some f) : f ∈ e.fields :=
  Keyed.mem_of_get? h

theorem mem_scalars {f : Field n} {s : Scalar} :
    (f, s) ∈ e.scalars ↔ f ∈ e.fields ∧ f.store = .scalar s := by
  simp only [scalars, List.mem_filterMap]
  constructor
  · rintro ⟨g, mem, same⟩
    unfold Field.asScalar? at same
    split at same
    · rename_i store
      cases same
      exact ⟨mem, store⟩
    · cases same
  · rintro ⟨mem, store⟩
    exact ⟨f, mem, by simp [Field.asScalar?, store]⟩

theorem mem_primaryKey {f : Field n} {s : Scalar} :
    (f, s) ∈ e.primaryKey ↔ (f, s) ∈ e.scalars ∧ f.primaryKey = true := by
  simp [primaryKey]

/-- Names that are distinct tell scalars apart. -/
theorem eq_of_name (distinct : (e.fields.map (·.name)).Nodup) {f f' : Field n} {s s' : Scalar}
    (mem : (f, s) ∈ e.scalars) (mem' : (f', s') ∈ e.scalars) (same : f.name = f'.name) :
    f = f' ∧ s = s' := by
  obtain ⟨inside, store⟩ := mem_scalars.mp mem
  obtain ⟨inside', store'⟩ := mem_scalars.mp mem'
  have found := Keyed.get?_of_mem distinct inside
  rw [same, Keyed.get?_of_mem distinct inside'] at found
  obtain rfl := Option.some.inj found
  exact ⟨rfl, FieldStore.scalar.inj (store.symm.trans store')⟩

end Entity

/-- A name that a field can have where fields are addressed by paths. -/
structure FieldName (name : String) : Prop where
  plain : Path.Plain name
  notKey : name ≠ Path.keySegment
  notCursor : name ≠ Path.cursorSegment

instance (name : String) : Decidable (FieldName name) :=
  decidable_of_iff (Path.Plain name ∧ name ≠ Path.keySegment ∧ name ≠ Path.cursorSegment)
    ⟨fun ⟨plain, notKey, notCursor⟩ => ⟨plain, notKey, notCursor⟩,
      fun ⟨plain, notKey, notCursor⟩ => ⟨plain, notKey, notCursor⟩⟩

/-- Whether all fields of a model can be addressed by paths. -/
def Model.PlainNames (m : Model) : Prop :=
  ∀ e ∈ m.entities, ∀ f ∈ e.fields, FieldName f.name

instance (m : Model) : Decidable m.PlainNames :=
  inferInstanceAs (Decidable (∀ e ∈ m.entities, ∀ f ∈ e.fields, FieldName f.name))

theorem Model.PlainNames.of_field? {m : Model} (plain : m.PlainNames) {e : Entity m.size}
    (mem : e ∈ m.entities) {name : String} {f : Field m.size} (h : e.field? name = some f) :
    FieldName f.name :=
  plain e mem f (Entity.mem_of_field? h)

/-- Whether the names of all fields can stand in paths, those reserved there included. -/
def Model.PathNames (m : Model) : Prop :=
  ∀ e ∈ m.entities, ∀ f ∈ e.fields, Path.Plain f.name

instance (m : Model) : Decidable m.PathNames :=
  inferInstanceAs (Decidable (∀ e ∈ m.entities, ∀ f ∈ e.fields, Path.Plain f.name))

theorem Model.PlainNames.paths {m : Model} (plain : m.PlainNames) : m.PathNames :=
  fun e mem f inside => (plain e mem f inside).plain

theorem Model.PathNames.of_field? {m : Model} (plain : m.PathNames) {e : Entity m.size}
    (mem : e ∈ m.entities) {name : String} {f : Field m.size} (h : e.field? name = some f) :
    Path.Plain f.name :=
  plain e mem f (Entity.mem_of_field? h)

end EntityGraph
