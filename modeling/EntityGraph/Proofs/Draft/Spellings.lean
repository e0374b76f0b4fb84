import EntityGraph.Proofs.Draft.Levels
import EntityGraph.Proofs.Draft.Resolve
import EntityGraph.Proofs.Model.Build

/-!
# Spellings of a column

Within the table of an entity a path names a column in one of two ways: by the name of its field
and, where the field belongs to the primary key, by that name below the reserved one.
-/
namespace EntityGraph

variable {m : Model} {entity : Entity m.size}

/-- Whether a path spells a field of the entity itself. -/
inductive Field.Spelled {n : Nat} (f : Field n) (path : String) : Prop where
  | name (single : Path.segments path = [f.name]) (free : f.name ≠ Path.keySegment)
  | key (below : Path.segments path = [Path.keySegment, f.name]) (inKey : f.primaryKey = true)

theorem Field.Spelled.isRoot {n : Nat} {f : Field n} {path : String} (spelled : f.Spelled path) :
    Path.isRoot path = true := by
  cases spelled with
  | name single free => exact Path.isRoot_iff.mpr (Or.inl ⟨f.name, single⟩)
  | key below inKey => exact Path.isRoot_iff.mpr (Or.inr ⟨f.name, below⟩)

namespace Drafting

variable {d d' : Draft m}

/-- What a path within the table of the entity is resolved to, in any draft. -/
theorem resolve_root_iff {path : String} (root : Path.isRoot path = true) {r : Resolved m}
    (grown : d.Grown entity) : resolve path d = .ok r d' ↔ d = d' ∧ ∃ f s,
      entity.field? f.name = some f ∧ f.store = .scalar s ∧ f.Spelled path ∧
        r = ⟨⟨entity.table, s.column⟩, f, s⟩ := by
  have atRoot : d.root = Level.ofRoot entity := grown.root_eq
  constructor
  · intro ok
    obtain ⟨f, below, found, inKey, ok⟩ | ⟨unreserved, l, d₁, follows, ok⟩ := resolve_eq_ok.mp ok
    · obtain ⟨rfl, f', s, found', store, rfl⟩ := scalarAt_eq_ok.mp ok
      obtain rfl := Option.some.inj (found.symm.trans found')
      rw [atRoot] at found ⊢
      exact ⟨rfl, f, s, found, store, .key below inKey, rfl⟩
    · obtain ⟨name, single⟩ := Path.exists_name_of_isRoot root unreserved
      rw [single] at follows ok unreserved
      obtain ⟨rfl, rfl⟩ := pure_eq_ok.mp follows
      obtain ⟨rfl, f, s, found, store, rfl⟩ := scalarAt_eq_ok.mp ok
      rw [atRoot] at found ⊢
      obtain rfl := Entity.name_of_field? found
      exact ⟨rfl, f, s, found, store, .name single (by simpa using unreserved), rfl⟩
  · rintro ⟨rfl, f, s, found, store, spelled, rfl⟩
    have scalar : scalarAt d.root f.name d = .ok ⟨⟨entity.table, s.column⟩, f, s⟩ d :=
      scalarAt_eq_ok.mpr ⟨rfl, f, s, atRoot ▸ found, store, atRoot ▸ rfl⟩
    refine resolve_eq_ok.mpr ?_
    cases spelled with
    | name single free =>
      refine Or.inr ⟨by simpa [single] using free, d.root, d, ?_, ?_⟩
      · rw [single]
        rfl
      · rwa [single]
    | key below inKey => exact Or.inl ⟨f, below, atRoot ▸ found, inKey, scalar⟩

end Drafting

/-- Whether a path names a column of the entity's own table: in every draft it is resolved to that
column, and nothing is joined for it. -/
def Entity.Names (entity : Entity m.size) (path column : String) : Prop :=
  Path.isRoot path = true ∧ ∃ f s, s.column = column ∧ ∀ d : Draft m, d.Grown entity →
    Drafting.resolve path d = .ok ⟨⟨entity.table, column⟩, f, s⟩ d

namespace Entity

theorem names_iff (distinct : (entity.fields.map (·.name)).Nodup) {path column : String} :
    entity.Names path column ↔
      ∃ f s, (f, s) ∈ entity.scalars ∧ s.column = column ∧ f.Spelled path := by
  constructor
  · rintro ⟨root, f, s, rfl, resolves⟩
    have grown : (Draft.start m entity).Grown entity := Draft.Grows.refl
    obtain ⟨-, f', s', found, store, spelled, same⟩ :=
      (Drafting.resolve_root_iff root grown).mp (resolves _ grown)
    obtain ⟨-, rfl, rfl⟩ := Resolved.mk.inj same
    exact ⟨f, s, mem_scalars.mpr ⟨mem_of_field? found, store⟩, rfl, spelled⟩
  · rintro ⟨f, s, mem, rfl, spelled⟩
    obtain ⟨inside, store⟩ := mem_scalars.mp mem
    refine ⟨spelled.isRoot, f, s, rfl, fun d grown => ?_⟩
    exact (Drafting.resolve_root_iff spelled.isRoot grown).mpr
      ⟨rfl, f, s, Keyed.get?_of_mem distinct inside, store, spelled, rfl⟩

/-- A path names one column. -/
theorem Names.unique {path column column' : String} (names : entity.Names path column)
    (names' : entity.Names path column') : column = column' := by
  obtain ⟨-, f, s, -, resolves⟩ := names
  obtain ⟨-, f', s', -, resolves'⟩ := names'
  have grown : (Draft.start m entity).Grown entity := Draft.Grows.refl
  have same := (resolves _ grown).symm.trans (resolves' _ grown)
  cases same
  rfl

/-- A key clause names its column unless there is a dot in the name of the field. -/
theorem names_key_iff (distinct : (entity.fields.map (·.name)).Nodup) {f : Field m.size}
    {s : Scalar} (mem : (f, s) ∈ entity.primaryKey) {column : String} :
    entity.Names (Path.key "" f.name) column ↔ s.column = column ∧ '.' ∉ f.name.toList := by
  obtain ⟨memS, inKey⟩ := mem_primaryKey.mp mem
  rw [names_iff distinct]
  constructor
  · rintro ⟨f', s', mem', rfl, spelled⟩
    cases spelled with
    | name single _ =>
      rw [Path.segments_key] at single
      exact absurd (List.cons.inj single).2 (Path.segments_ne_nil f.name)
    | key below _ =>
      rw [Path.segments_key] at below
      obtain ⟨same, undotted⟩ := Path.segments_eq_singleton.mp (List.cons.inj below).2
      obtain ⟨-, rfl⟩ := eq_of_name distinct memS mem' same
      exact ⟨rfl, undotted⟩
  · rintro ⟨rfl, undotted⟩
    refine ⟨f, s, memS, rfl, .key ?_ inKey⟩
    rw [Path.segments_key, Path.segments_of_undotted undotted]

end Entity

end EntityGraph
