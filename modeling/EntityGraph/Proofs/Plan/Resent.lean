import EntityGraph.Proofs.Plan.Membership
import EntityGraph.Proofs.Scalar.Canonical

/-!
# Values that are sent back

What a node shows of a stored value can be sent back, as a member of a key or in a filter for
equality. Where the value has the form in which its scalar stores what clients send, the store
is then asked for exactly this value.
-/
namespace EntityGraph

theorem ScalarKind.Canonical.ne_null {kind : ScalarKind} {v : Value}
    (canonical : kind.Canonical v) : v ≠ .null := by
  cases canonical <;> exact nofun

/-- A field shows what its codec does, and stores as that does. -/
theorem Scalar.decode_encode {s : Scalar} {v : Value} {shown : Json} (filled : v ≠ .null)
    (visible : shown ≠ .null) (decoded : s.codec.decode v = .ok shown)
    (encoded : s.codec.encode shown = .ok v) :
    s.decode v = .ok shown ∧ ∀ field, s.encode field shown = .ok v := by
  have some : shown.isNull = false := by
    cases shown <;> first | rfl | exact absurd rfl visible
  constructor
  · simp only [decode, Codec.decodeField, Value.isNull_eq_false filled,
      Bool.false_eq_true, if_false, decoded]
  · intro field
    simp only [encode, Codec.encodeField, some, Bool.false_eq_true, if_false, encoded]

/-- Whether a scalar has the codec of a kind of scalars, and a value the form in which that kind
stores what clients send. -/
def Scalar.Canonical (s : Scalar) (v : Value) : Prop :=
  ∃ kind : ScalarKind, s.codec = kind.codec ∧ kind.Canonical v

theorem Scalar.Canonical.ne_null {s : Scalar} {v : Value} (canonical : s.Canonical v) :
    v ≠ .null := by
  obtain ⟨kind, -, canonical⟩ := canonical
  exact ScalarKind.Canonical.ne_null canonical

theorem Scalar.Canonical.exists_decode {s : Scalar} {v : Value} (canonical : s.Canonical v) :
    ∃ shown, s.decode v = .ok shown ∧ ∀ field, s.encode field shown = .ok v := by
  obtain ⟨kind, builtIn, canonical⟩ := canonical
  obtain ⟨shown, decodes, visible, encodes⟩ := ScalarKind.Canonical.exists_decode canonical
  refine ⟨shown, Scalar.decode_encode canonical.ne_null visible ?_ ?_⟩
  · rw [builtIn]
    exact decodes
  · rw [builtIn]
    exact encodes

theorem Scalar.encode_of_decode {s : Scalar} {v : Value} {shown : Json}
    (canonical : s.Canonical v) (decoded : s.decode v = .ok shown) (field : String) :
    s.encode field shown = .ok v := by
  obtain ⟨shown', decoded', encoded⟩ := canonical.exists_decode
  obtain rfl := Except.ok.inj (decoded.symm.trans decoded')
  exact encoded field

namespace Plan

variable {m : Model} {entity : Entity m.size} {selection : List Selection}

/-- Whether a key object gives, for each field of the primary key, what is shown of a row there,
and the row has all values of its key in their form. -/
def ShowsKey (entity : Entity m.size) (t : Tuple) (members : List (String × Json)) : Prop :=
  ∀ p ∈ entity.primaryKey, p.2.Canonical (t p.2.column) ∧
    ∃ shown, (Keyed.get? Prod.fst p.1.name members).map Prod.snd = some shown ∧
      p.2.decode (t p.2.column) = .ok shown

/-- The comparisons with the key of a row. -/
def keyConditions (entity : Entity m.size) (t : Tuple) : List Condition :=
  entity.primaryKey.map fun p => .compare ⟨entity.table, p.2.column⟩ .eq (t p.2.column)

theorem keyCondition_of_shows {t : Tuple} {members : List (String × Json)}
    (shows : ShowsKey entity t members) : entity.primaryKey.mapM (keyCondition entity members) =
      .ok (keyConditions entity t) := by
  refine Outcome.mapM_of_ok fun p mem => ?_
  obtain ⟨canonical, shown, given, decoded⟩ := shows p mem
  obtain ⟨⟨name, _⟩, found, rfl⟩ := Option.map_eq_some_iff.mp given
  have encoded := Scalar.encode_of_decode canonical decoded p.1.name
  simp only [keyCondition, found, encoded]
  rfl

theorem values_keyConditions {t : Tuple}
    (filled : ∀ p ∈ entity.primaryKey, t p.2.column ≠ .null) :
    conjunctionValues (keyConditions entity t) =
      entity.primaryKey.map fun p => t p.2.column := by
  unfold keyConditions
  revert filled
  generalize entity.primaryKey = key
  intro filled
  induction key with
  | nil => rfl
  | cons p rest ih =>
    have here := Value.isNull_eq_false (filled p List.mem_cons_self)
    have later := ih fun q mem => filled q (List.mem_cons_of_mem _ mem)
    rw [List.map_cons, conjunctionValues, Condition.values, later, here]
    rfl

/-- Values in the form in which their scalars store what clients send are shown, and what is
shown of one is stored as that value. A filter for equality with what is shown compares its
column with the value; a lookup by what is shown of a row's key compares the columns of the key
with the values of the row, which are all the parameters that the store is given. -/
theorem shown_values_are_asked_for :
    (∀ (kind : ScalarKind) (v : Value), kind.Canonical v → ∃ shown,
      kind.decode v = .ok shown ∧ kind.encode shown = .ok v ∧
      ∀ s : Scalar, s.codec = kind.codec →
        s.decode v = .ok shown ∧ ∀ field, s.encode field shown = .ok v) ∧
    (∀ (m : Model) (r : Resolved m) (field : String) (v : Value) (shown : Json),
      r.scalar.Canonical v → r.scalar.decode v = .ok shown →
        filterCondition r ⟨field, .eq, shown⟩ = .ok (.compare r.column .eq v) ∧
        ∀ s d κ row, Passes r ⟨field, .eq, shown⟩ s d κ row ↔ κ.place (row r.column) v = .eq) ∧
    ∀ (m : Model) (entity : Entity m.size) (selection : List Selection) (draft : Draft m)
      (t : Tuple) (members : List (String × Json)),
      Drafting.runOn entity (Drafting.select selection) = .ok ((), draft) →
      ShowsKey entity t members → ∃ s, find m entity (.object members) selection = .ok s ∧
        s.conditions = keyConditions entity t ∧
        ∀ d, (s.render d).parameters = entity.primaryKey.map fun p => t p.2.column := by
  refine ⟨?_, ?_, ?_⟩
  · intro kind v canonical
    obtain ⟨shown, decodes, visible, encodes⟩ := canonical.exists_decode
    refine ⟨shown, decodes, encodes, fun s builtIn => ?_⟩
    exact Scalar.decode_encode canonical.ne_null visible (builtIn ▸ decodes) (builtIn ▸ encodes)
  · intro m r field v shown canonical decoded
    have encoded := Scalar.encode_of_decode canonical decoded field
    refine ⟨Outcome.bind_eq_ok.mpr ⟨v, encoded, rfl⟩, fun s d κ row => ?_⟩
    rw [passes_eq, encoded]
    simp
  · intro m entity selection draft t members drafted shows
    have compared := keyCondition_of_shows shows
    refine ⟨{ draft.statement with conditions := keyConditions entity t }, ?_, rfl, fun d => ?_⟩
    · exact Outcome.bind_eq_ok.mpr ⟨_, drafted, Outcome.bind_eq_ok.mpr ⟨_, compared, rfl⟩⟩
    · have grown : draft.Grown entity :=
        Drafting.grows_of_ok (Drafting.grows_select _ _) (runOn_eq_ok.mp drafted)
      have writes := (Piece.writes_statement d
        { draft.statement with conditions := keyConditions entity t }).values_eq
      rw [Statement.values, grown.statement_bare.2.2.2.2, List.nil_append] at writes
      exact writes.trans (values_keyConditions fun p mem => (shows p mem).1.ne_null)

theorem shown_values_are_asked_for_of_library :
    (∃ shown, ScalarKind.decode (.id true) (.integer Int64.minValue) = .ok shown ∧
      ScalarKind.encode (.id true) shown = .ok (.integer Int64.minValue)) ∧
    filterCondition authorName ⟨"name", .eq, .text "Ada"⟩ =
      .ok (.compare authorName.column .eq (.text "Ada")) ∧
    ∃ s, find libraryModel libraryAuthors (.object [("id", .text "1")]) librarySelection = .ok s ∧
      s.conditions = [.compare ⟨"authors", "id"⟩ .eq (.integer 1)] ∧
      ∀ d, (s.render d).parameters = [.integer 1] := by
  obtain ⟨codecs, filters, lookups⟩ := shown_values_are_asked_for
  refine ⟨?_, ?_, ?_⟩
  · obtain ⟨shown, decodes, encodes, -⟩ := codecs _ _ (.integerId Int64.minValue)
    exact ⟨shown, decodes, encodes⟩
  · have canonical : authorName.scalar.Canonical (.text "Ada") := ⟨.string, rfl, .string "Ada"⟩
    exact (filters _ authorName "name" _ _ canonical rfl).1
  · have drafted : ∃ draft, Drafting.runOn libraryAuthors (Drafting.select librarySelection) =
        .ok ((), draft) := ⟨_, rfl⟩
    obtain ⟨draft, drafted⟩ := drafted
    have key : ∀ p ∈ libraryAuthors.primaryKey,
        p.1.name = "id" ∧ p.2.column = "id" ∧ p.2.codec = (ScalarKind.id true).codec := by
      intro p mem
      obtain rfl := List.mem_singleton.mp mem
      exact ⟨rfl, rfl, rfl⟩
    have shows : ShowsKey libraryAuthors (rowOf [("id", .integer 1)]) [("id", .text "1")] := by
      intro p mem
      obtain ⟨name, column, builtIn⟩ := key p mem
      have digits : Decimal.ofInt (Int64.toInt 1) = "1" := by decide +kernel
      have decoded : (ScalarKind.id true).codec.decodeField (.integer 1) = .ok (.text "1") := by
        rw [← digits]
        rfl
      rw [name, column, Scalar.decode, builtIn]
      exact ⟨⟨.id true, builtIn, .integerId 1⟩, .text "1", rfl, decoded⟩
    exact lookups _ _ _ draft _ _ drafted shows

end Plan

end EntityGraph
