import EntityGraph.Proofs.Json.Reals
import EntityGraph.Proofs.Window.Cursor

/-!
# Nulls in cursors

Every cursor that was written can be read. A position of it is null where the value was null, and
where it was a real that is no finite number; so values that differ otherwise in what is null
never have the same cursor.
-/
namespace EntityGraph

namespace Value

/-- Whether a cursor holds null for a value. -/
def Blank : Value → Prop
  | .null => True
  | .real x => x.isFinite = false
  | _ => False

/-- What a cursor gives back for a value: null for a real that is no finite number, what their
numerals are read as for the other reals, and anything else as it is. -/
inductive KeptAs : Value → Value → Prop where
  | same {v : Value} : (∀ x, v ≠ .real x) → KeptAs v v
  | numeral {x y : Binary64} : x.isFinite = true →
      Json.Number.ofChars? (Json.Number.real x).write.toList = some (.real y) →
      KeptAs (.real x) (.real y)
  | endless {x : Binary64} : x.isFinite = false → KeptAs (.real x) .null

theorem KeptAs.null_iff {v kept : Value} (keeps : v.KeptAs kept) : kept = .null ↔ v.Blank := by
  cases keeps with
  | same noReal =>
    cases v with
    | real x => exact absurd rfl (noReal x)
    | _ => simp [Blank]
  | numeral finite _ => simp [Blank, finite]
  | endless endless => simp [Blank, endless]

theorem KeptAs.blank_iff {values values' kept : List Value}
    (keeps : List.Forall₂ KeptAs values kept) (keeps' : List.Forall₂ KeptAs values' kept) :
    List.Forall₂ (fun v v' => v.Blank ↔ v'.Blank) values values' := by
  induction keeps generalizing values' with
  | nil =>
    cases keeps'
    exact .nil
  | cons here _ ih =>
    cases keeps' with
    | cons here' others' => exact .cons (here.null_iff.symm.trans here'.null_iff) (ih others')

/-- The form of a value is read as a form of what is kept of it. -/
theorem exists_kept (v : Value) (room : Nat) : ∃ (form : Json) (kept : Value), v.KeptAs kept ∧
    Json.ScansTo v.toJson.write.toList form.tokens ∧ Json.Delivered (room + 1) form ∧
    ofJson? form = some kept := by
  have asItIs : v.Survives → v.KeptAs v → ∃ (form : Json) (kept : Value), v.KeptAs kept ∧
      Json.ScansTo v.toJson.write.toList form.tokens ∧ Json.Delivered (room + 1) form ∧
      ofJson? form = some kept := fun survives keeps =>
    ⟨v.toJson, v, keeps, Json.scansTo_write (legible_toJson survives room),
      Json.delivered (legible_toJson survives room), ofJson?_toJson survives⟩
  cases v with
  | real x =>
    cases finite : x.isFinite with
    | true =>
      obtain ⟨y, read⟩ := Json.exists_ofChars?_real finite
      refine ⟨.number (.real y), .real y, .numeral finite read, ?_, .number _, rfl⟩
      rw [toJson, Json.ofReal, if_pos finite, Json.write, Json.tokens]
      exact Json.scansTo_numeral read
    | false =>
      refine ⟨.null, .null, .endless finite, ?_, Json.delivered .null, rfl⟩
      rw [toJson, Json.ofReal, if_neg (by simp [finite])]
      exact Json.scansTo_write (.null : Json.Legible 0 .null)
  | _ =>
    refine asItIs trivial (.same fun x same => ?_)
    cases same

end Value

namespace Cursor

/-- A cursor is read as what is kept of its values. -/
theorem exists_read (values : List Value) : ∃ kept, List.Forall₂ Value.KeptAs values kept ∧
    ∀ arity, read (encode values) arity =
      if values.length = arity then .ok kept else .error (.arity arity values.length) := by
  have each : ∃ (forms : List Json) (kept : List Value),
      List.Forall₂ (fun v form => Json.ScansTo v.toJson.write.toList form.tokens) values forms ∧
      List.Forall₂ Value.KeptAs values kept ∧
      (∀ form ∈ forms, Json.Delivered (Json.maxDepth - 1) form) ∧
      List.Forall₂ (fun form k => Value.ofJson? form = some k) forms kept := by
    induction values with
    | nil => exact ⟨[], [], .nil, .nil, by simp, .nil⟩
    | cons v values ih =>
      obtain ⟨form, k, keeps, scans, delivers, read⟩ := v.exists_kept (Json.maxDepth - 2)
      obtain ⟨forms, kept, allScan, allKept, allDelivered, allRead⟩ := ih
      exact ⟨form :: forms, k :: kept, .cons scans allScan, .cons keeps allKept,
        List.forall_mem_cons.mpr ⟨delivers, allDelivered⟩, .cons read allRead⟩
  obtain ⟨forms, kept, scans, keeps, delivers, reads⟩ := each
  refine ⟨kept, keeps, fun arity => ?_⟩
  have parsed : Json.parse? (Json.array (values.map Value.toJson)).write = some (.array forms) :=
    Json.parse?_of_scansTo (Json.scansTo_writeArray (List.forall₂_map_left_iff.mpr scans))
      (.array delivers)
  unfold read
  rw [encode, Text.Base64.decode_encode]
  simp only [Text.ofBytes?_toBytes, Option.bind_some, parsed, ← scans.length_eq,
    values?_eq_ok.mpr reads]

/-- Every cursor that was written is read by whoever asks for as many values as it holds. It has
null for the values that are null and for the reals that are no finite numbers, and what it has
for the others is not null. So tuples with one cursor agree on where they are blank. -/
theorem decode_encode_nulls (side : Side) :
    (∀ values : List Value, ∃ kept, decode side (encode values) values.length = .ok kept ∧
      List.Forall₂ Value.KeptAs values kept ∧
      List.Forall₂ (fun v k => k = .null ↔ v.Blank) values kept) ∧
    ∀ values values' : List Value, encode values = encode values' →
      List.Forall₂ (fun v v' => v.Blank ↔ v'.Blank) values values' := by
  constructor
  · intro values
    obtain ⟨kept, keeps, reads⟩ := exists_read values
    refine ⟨kept, ?_, keeps, keeps.imp fun v k keeps => keeps.null_iff⟩
    rw [decode, reads, if_pos rfl]
  · intro values values' same
    obtain ⟨kept, keeps, reads⟩ := exists_read values
    obtain ⟨kept', keeps', reads'⟩ := exists_read values'
    have both := reads values.length
    rw [same, reads', if_pos rfl] at both
    split at both
    · obtain rfl := Except.ok.inj both
      exact Value.KeptAs.blank_iff keeps keeps'
    · cases both

/-- Infinity is not null, and its cursor is that of null, from which null is read. -/
theorem infinity_becomes_null : Value.real (Binary64.infinity false) ≠ .null ∧
    encode [.real (Binary64.infinity false)] = encode [.null] ∧
    decode .after (encode [.real (Binary64.infinity false)]) 1 = .ok [.null] :=
  ⟨nofun, by decide +kernel, rfl⟩

end Cursor

end EntityGraph
