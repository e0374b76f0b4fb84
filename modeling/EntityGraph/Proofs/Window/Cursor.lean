import EntityGraph.Proofs.Json.RoundTrip
import EntityGraph.Proofs.Outcome
import EntityGraph.Proofs.Text.Base64
import EntityGraph.Window.Cursor

/-!
# Cursors read back

A cursor that can be read holds a value for every position of the list's order. A cursor that
was written can be read, and its values are the same, if its reals survive as numerals.
-/
namespace EntityGraph

/-- Whether a cursor keeps the value: a real has to be finite and read back from its text. -/
def Value.Survives : Value → Prop
  | .real x => x.isFinite = true ∧ (Json.Number.real x).ReadsBack
  | _ => True

instance : DecidablePred Value.Survives
  | .real _ => inferInstanceAs (Decidable (_ ∧ _))
  | .integer _ | .text _ | .blob _ | .null => inferInstanceAs (Decidable True)

theorem Value.legible_toJson {v : Value} (survives : v.Survives) (room : Nat) :
    v.toJson.Legible (room + 1) := by
  cases v with
  | integer i => exact Json.Legible.number (Json.readsBack_int64 i)
  | real x =>
    obtain ⟨finite, reads⟩ := survives
    rw [Value.toJson, Json.ofReal, if_pos finite]
    exact Json.Legible.number reads
  | text s => exact Json.Legible.text s
  | blob bytes =>
    refine Json.Legible.array fun item mem => ?_
    obtain ⟨b, -, rfl⟩ := List.mem_map.mp mem
    have small := b.toNat_lt
    have low : Int64.minValue.toInt ≤ (b.toNat : Int) := by
      have bottom : Int64.minValue.toInt = -9223372036854775808 := by decide
      omega
    have size : UInt64.size = 2 ^ 64 := rfl
    exact Json.Legible.number (Json.readsBack_int low (by omega))
  | null => exact Json.Legible.null

theorem Value.byte?_ofInt (b : UInt8) : Value.byte? (Json.ofInt b.toNat) = some b := by
  have small := b.toNat_lt
  have inside : (0 : Int) ≤ b.toNat ∧ (b.toNat : Int) < 256 := by omega
  rw [Json.ofInt, Value.byte?, if_pos inside, Int.toNat_natCast, UInt8.ofNat_toNat]

theorem Value.ofJson?_toJson {v : Value} (survives : v.Survives) :
    Value.ofJson? v.toJson = some v := by
  cases v with
  | integer i =>
    simp [Value.toJson, Json.ofInt, Value.ofJson?, Json.Number.int64?_int]
  | real x => simp [Value.toJson, Json.ofReal, survives.1, Value.ofJson?, Json.Number.int64?,
      Json.Number.toReal]
  | text s => rfl
  | blob bytes =>
    have each : (bytes.map fun b => Json.ofInt b.toNat).mapM Value.byte? = some bytes := by
      induction bytes with
      | nil => rfl
      | cons b bytes ih =>
        rw [List.map_cons, List.mapM_cons, Value.byte?_ofInt, ih trivial]
        rfl
    rw [Value.toJson, Value.ofJson?, each]
    rfl
  | null => rfl

namespace Cursor

theorem values?_eq_ok {items : List Json} {values : List Value} :
    values? items = .ok values ↔
      List.Forall₂ (fun item v => Value.ofJson? item = some v) items values := by
  induction items generalizing values with
  | nil =>
    rw [values?, List.forall₂_nil_left_iff]
    exact ⟨fun h => (Except.ok.inj h).symm, fun h => congrArg Except.ok h.symm⟩
  | cons item rest ih =>
    rw [List.forall₂_cons_left_iff]
    unfold values?
    constructor
    · intro ok
      split at ok
      · cases ok
      · rename_i v here
        split at ok
        · rename_i vs later
          exact ⟨v, vs, here, ih.mp later, (Except.ok.inj ok).symm⟩
        · cases ok
    · rintro ⟨v, vs, here, later, rfl⟩
      rw [here, ih.mpr later]

theorem length_of_read {cursor : String} {arity : Nat} {values : List Value}
    (ok : read cursor arity = .ok values) : values.length = arity := by
  unfold read at ok
  split at ok
  · cases ok
  · split at ok
    · cases ok
    · split at ok
      · rename_i items _ whole
        exact (values?_eq_ok.mp ok).length_eq.symm.trans whole
      · cases ok
    · cases ok

theorem length_of_decode {side : Side} {cursor : String} {arity : Nat} {values : List Value}
    (ok : decode side cursor arity = .ok values) : values.length = arity := by
  unfold decode at ok
  split at ok
  · rename_i vs readOk
    cases ok
    exact length_of_read readOk
  · cases ok

theorem values?_toJson {values : List Value} (survive : ∀ v ∈ values, v.Survives) :
    values? (values.map Value.toJson) = .ok values := by
  rw [values?_eq_ok, List.forall₂_map_left_iff, List.forall₂_same]
  exact fun v mem => Value.ofJson?_toJson (survive v mem)

/-- A cursor is read as the values it was written for, by whoever asks for as many. -/
theorem read_encode {values : List Value} (survive : ∀ v ∈ values, v.Survives) (arity : Nat) :
    read (encode values) arity =
      if values.length = arity then .ok values else .error (.arity arity values.length) := by
  have legible : (Json.array (values.map Value.toJson)).Legible Json.maxDepth := by
    refine Json.Legible.array fun item mem => ?_
    obtain ⟨v, memV, rfl⟩ := List.mem_map.mp mem
    exact Value.legible_toJson (survive v memV) _
  unfold read
  rw [encode, Text.Base64.decode_encode]
  simp only [Text.ofBytes?_toBytes, Option.bind_some, Json.parse?_write legible, List.length_map,
    values?_toJson survive]

theorem decode_encode (side : Side) {values : List Value}
    (survive : ∀ v ∈ values, v.Survives) :
    decode side (encode values) values.length = .ok values := by
  rw [decode, read_encode survive, if_pos rfl]

/--
A cursor gives back its values to whoever asks for as many as it holds, and anyone else is told
that it is malformed.
-/
theorem decode_encode_by_arity (side : Side) {values : List Value}
    (survive : ∀ v ∈ values, v.Survives) (arity : Nat) :
    decode side (encode values) arity =
      if arity = values.length then .ok values
      else .error (.malformedCursor side (.arity arity values.length)) := by
  rw [decode, read_encode survive]
  by_cases same : arity = values.length
  · rw [if_pos same.symm, if_pos same]
  · rw [if_neg (Ne.symm same), if_neg same]

/-- One value of each form; the real is one, the text has to be escaped. -/
def mixed : List Value :=
  [.integer (-9223372036854775808), .real ⟨0x3ff0000000000000⟩, .text "\"a\\ é\n𝄞",
    .blob [0, 34, 255], .null]

theorem decode_encode_by_arity_of_mixed :
    (∀ v ∈ mixed, v.Survives) ∧
      decode .after (encode mixed) 5 = .ok mixed ∧
      decode .before (encode mixed) 4 = .error (.malformedCursor .before (.arity 4 5)) := by
  have survive : ∀ v ∈ mixed, v.Survives := by decide +kernel
  exact ⟨survive, decode_encode_by_arity .after survive 5, decode_encode_by_arity .before survive 4⟩

end Cursor

end EntityGraph
