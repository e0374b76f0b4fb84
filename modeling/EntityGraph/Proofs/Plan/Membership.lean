import EntityGraph.Proofs.Plan.Filled

/-!
# Membership and equality

A filter for membership is meant to admit what one of the filters for equality with its elements
admits. Null is an element like any other to a client, and a filter for equality with it admits
null; but an element of a list is compared as it is, and nothing compares equal to null. It is
shown that this is the only difference between the two.
-/
namespace EntityGraph

/-- No codec of a kind of scalar stores null for anything but null. -/
theorem ScalarKind.encode_ne_null (kind : ScalarKind) (v : Json) : kind.encode v ≠ .ok .null := by
  have integer : ∀ (wanted : String) (n : Json.Number), encodeInteger wanted n ≠ .ok .null := by
    intro wanted n
    unfold encodeInteger
    split <;> simp
  unfold encode
  split <;> (try split) <;> (try split) <;> simp [integer]

theorem Scalar.encode_null (s : Scalar) (field : String) : s.encode field .null = .ok .null :=
  rfl

theorem Scalar.encode_eq_null {s : Scalar} {kind : ScalarKind} (builtIn : s.codec = kind.codec)
    {field : String} {item : Json} : s.encode field item = .ok .null ↔ item = .null := by
  constructor
  · intro ok
    unfold encode Codec.encodeField at ok
    split at ok
    · rename_i null
      cases item <;> first | rfl | cases null
    · split at ok
      · rename_i value here
        obtain rfl := Except.ok.inj ok
        rw [builtIn] at here
        exact absurd here (kind.encode_ne_null item)
      · cases ok
  · rintro rfl
    exact s.encode_null field

/-- A value among others, of which null is none. -/
theorem Condition.holds_isIn {κ : Collation} {row : Reading} (column : ColumnRef)
    (values : List Value) : (Condition.isIn column values).Holds κ row ↔
      ∃ v ∈ values, v ≠ .null ∧ κ.place (row column) v = .eq := by
  have equal : ∀ v, κ.equal (row column) v = .yes ↔
      v ≠ .null ∧ κ.place (row column) v = .eq := by
    intro v
    rw [κ.equal_eq_yes]
    refine ⟨fun ⟨_, filled, same⟩ => ⟨filled, same⟩, fun ⟨filled, same⟩ => ⟨?_, filled, same⟩⟩
    intro null
    rw [null, κ.place_null_left filled] at same
    cases same
  rw [Holds, truth]
  induction values with
  | nil => simp [Collation.member]
  | cons v values ih =>
    rw [Collation.member, Truth.or_eq_yes, equal, List.exists_mem_cons_iff]
    exact or_congr_right ih

/-- The statement with one filter and no other. -/
def Statement.filteredBy (s : Statement) (condition : Condition) : Statement :=
  { s with conditions := [condition], bounded := none }

namespace Plan

variable {m : Model} {r : Resolved m} {field : String} {items : List Json}
  {s : Statement} {d : Dialect} {κ : Collation} {row : Reading}

/-- Whether a row passes a filter as it is written in a statement. -/
def Passes (r : Resolved m) (c : FilterClause) (s : Statement) (d : Dialect) (κ : Collation)
    (row : Reading) : Prop :=
  ∃ condition, filterCondition r c = .ok condition ∧
    ((s.filteredBy condition).render d).Accepts κ row

theorem passes_iff {c : FilterClause} : Passes r c s d κ row ↔
    ∃ condition, filterCondition r c = .ok condition ∧ condition.Holds κ row := by
  refine exists_congr fun condition => and_congr_right fun ok => ?_
  have filled : (s.filteredBy condition).Filled :=
    ⟨(filledConditions_iff _).mpr (List.forall_mem_singleton.mpr (filled_filterCondition ok)),
      fun b none => nomatch none⟩
  rw [Statement.accepts_render_iff filled]
  have only : (s.filteredBy condition).filters = [[condition]] := rfl
  simp [only]

theorem passes_eq {item : Json} : Passes r ⟨field, .eq, item⟩ s d κ row ↔
    ∃ v, r.scalar.encode field item = .ok v ∧ κ.place (row r.column) v = .eq := by
  rw [passes_iff]
  constructor
  · rintro ⟨condition, ok, holds⟩
    obtain ⟨v, encoded, last⟩ := Outcome.bind_eq_ok.mp ok
    obtain rfl := Outcome.pure_eq_ok.mp last
    exact ⟨v, encoded, (Condition.holds_eq _ _).mp holds⟩
  · rintro ⟨v, encoded, same⟩
    exact ⟨_, Outcome.bind_eq_ok.mpr ⟨v, encoded, rfl⟩, (Condition.holds_eq _ _).mpr same⟩

theorem passes_in : Passes r ⟨field, .isIn, .array items⟩ s d κ row ↔
    ∃ vs, items.mapM (r.scalar.encode field) = .ok vs ∧
      ∃ v ∈ vs, v ≠ .null ∧ κ.place (row r.column) v = .eq := by
  rw [passes_iff]
  constructor
  · rintro ⟨condition, ok, holds⟩
    obtain ⟨vs, encoded, last⟩ := Outcome.bind_eq_ok.mp ok
    obtain rfl := Outcome.pure_eq_ok.mp last
    exact ⟨vs, encoded, (Condition.holds_isIn _ _).mp holds⟩
  · rintro ⟨vs, encoded, same⟩
    exact ⟨_, Outcome.bind_eq_ok.mpr ⟨vs, encoded, rfl⟩, (Condition.holds_isIn _ _).mpr same⟩

theorem passes_null {item : Json} (null : r.scalar.encode field item = .ok .null) :
    Passes r ⟨field, .eq, item⟩ s d κ row ↔ row r.column = .null := by
  rw [passes_eq]
  constructor
  · rintro ⟨v, encoded, same⟩
    obtain rfl := Except.ok.inj (encoded.symm.trans null)
    by_contra filled
    rw [κ.place_null_right filled] at same
    cases same
  · intro empty
    exact ⟨.null, null, by rw [empty, κ.place_null_null]⟩

theorem passes_in_iff {vs : List Value} (all : items.mapM (r.scalar.encode field) = .ok vs) :
    Passes r ⟨field, .isIn, .array items⟩ s d κ row ↔
      ∃ item ∈ items, r.scalar.encode field item ≠ .ok .null ∧
        Passes r ⟨field, .eq, item⟩ s d κ row := by
  have each := Outcome.mapM_eq_ok.mp all
  rw [passes_in]
  constructor
  · rintro ⟨vs', all', v, mem, filled, same⟩
    obtain rfl := Except.ok.inj (all.symm.trans all')
    obtain ⟨item, inside, encoded⟩ := Outcome.exists_of_mem_right each mem
    refine ⟨item, inside, fun null => ?_, passes_eq.mpr ⟨v, encoded, same⟩⟩
    exact filled (Except.ok.inj (encoded.symm.trans null))
  · rintro ⟨item, inside, filled, passes⟩
    obtain ⟨v, encoded, same⟩ := passes_eq.mp passes
    obtain ⟨v', mem, encoded'⟩ := Outcome.exists_of_mem_left each inside
    obtain rfl := Except.ok.inj (encoded.symm.trans encoded')
    refine ⟨vs, all, v, mem, ?_, same⟩
    rintro rfl
    exact filled encoded

/-- A filter for membership admits what a filter for equality with one of the elements admits, if
that element is not stored as null. So the two disagree about a row exactly where an element is
and the row has null. Null itself is always stored as null; with the codecs of the kinds of
scalars nothing else is. -/
theorem membership_misses_null (encodes : ∀ item ∈ items, ∃ v,
      r.scalar.encode field item = .ok v) :
    (∃ among, filterCondition r ⟨field, .isIn, .array items⟩ = .ok among) ∧
    (∀ item ∈ items, ∃ equal, filterCondition r ⟨field, .eq, item⟩ = .ok equal) ∧
    ∀ (s : Statement) (d : Dialect) (κ : Collation) (row : Reading),
      (Passes r ⟨field, .isIn, .array items⟩ s d κ row ↔
        ∃ item ∈ items, r.scalar.encode field item ≠ .ok .null ∧
          Passes r ⟨field, .eq, item⟩ s d κ row) ∧
      ((Passes r ⟨field, .isIn, .array items⟩ s d κ row ↔
          ∃ item ∈ items, Passes r ⟨field, .eq, item⟩ s d κ row) ↔
        ((∃ item ∈ items, r.scalar.encode field item = .ok .null) → row r.column ≠ .null)) ∧
      r.scalar.encode field .null = .ok .null ∧
      ∀ kind : ScalarKind, r.scalar.codec = kind.codec →
        ∀ item, r.scalar.encode field item = .ok .null ↔ item = .null := by
  obtain ⟨vs, all⟩ := Outcome.exists_mapM_eq_ok encodes
  refine ⟨⟨_, Outcome.bind_eq_ok.mpr ⟨vs, all, rfl⟩⟩, fun item mem => ?_,
    fun s d κ row => ⟨passes_in_iff all, ?_, r.scalar.encode_null field,
      fun kind builtIn item => Scalar.encode_eq_null builtIn⟩⟩
  · obtain ⟨v, encoded⟩ := encodes item mem
    exact ⟨_, Outcome.bind_eq_ok.mpr ⟨v, encoded, rfl⟩⟩
  rw [passes_in_iff all]
  constructor
  · rintro agree ⟨missed, inside, null⟩ empty
    obtain ⟨item, -, filled, passes⟩ := agree.mpr ⟨missed, inside, (passes_null null).mpr empty⟩
    obtain ⟨v, encoded, same⟩ := passes_eq.mp passes
    have stored : v ≠ .null := by
      rintro rfl
      exact filled encoded
    rw [empty, κ.place_null_left stored] at same
    cases same
  · intro other
    refine ⟨fun ⟨item, inside, _, passes⟩ => ⟨item, inside, passes⟩, ?_⟩
    rintro ⟨item, inside, passes⟩
    refine ⟨item, inside, fun null => ?_, passes⟩
    exact other ⟨item, inside, null⟩ ((passes_null null).mp passes)

/-- The name of an author. -/
def authorName : Resolved libraryModel :=
  let (f, s) := (libraryAuthors.scalarAt? "name").get (by decide +kernel)
  ⟨⟨"authors", s.column⟩, f, s⟩

theorem membership_misses_null_of_authors :
    (∀ item ∈ [Json.text "Ada", .null], ∃ v, authorName.scalar.encode "name" item = .ok v) ∧
    ∀ (d : Dialect) (κ : Collation) (row : Reading),
      Passes authorName ⟨"name", .isIn, .array [.text "Ada", .null]⟩ booksInGroups d κ row ↔
        κ.place (row authorName.column) (.text "Ada") = .eq := by
  have stored : authorName.scalar.encode "name" (.text "Ada") = .ok (.text "Ada") := rfl
  have encodes : ∀ item ∈ [Json.text "Ada", .null], ∃ v,
      authorName.scalar.encode "name" item = .ok v := by
    intro item mem
    rcases List.mem_cons.mp mem with rfl | mem
    · exact ⟨_, stored⟩
    · rw [List.mem_singleton.mp mem]
      exact ⟨.null, rfl⟩
  refine ⟨encodes, fun d κ row => ?_⟩
  rw [((membership_misses_null encodes).2.2 booksInGroups d κ row).1]
  constructor
  · rintro ⟨item, mem, filled, passes⟩
    rcases List.mem_cons.mp mem with rfl | mem
    · obtain ⟨v, encoded, same⟩ := passes_eq.mp passes
      rwa [← Except.ok.inj (stored.symm.trans encoded)] at same
    · rw [List.mem_singleton.mp mem] at filled
      exact absurd (Scalar.encode_null _ _) filled
  · intro same
    exact ⟨.text "Ada", List.mem_cons_self, by simp [stored], passes_eq.mpr ⟨_, stored, same⟩⟩

/-- An author without a name. -/
def nameless : Reading := fun c =>
  if c.column = "name" then .null else .integer 3

/-- An author without a name passes the filter for a name that is null, but not the filter for a
name in the list of null alone. -/
theorem nameless_is_missed : ∃ plan plan',
    list libraryModel libraryAuthors [⟨"name", []⟩]
      { filter := [⟨"name", .isIn, .array [.null]⟩] } {} = .ok plan ∧
    list libraryModel libraryAuthors [⟨"name", []⟩]
      { filter := [⟨"name", .eq, .null⟩] } {} = .ok plan' ∧
    ∀ (d : Dialect) (κ : Collation), ¬ (plan.statement.render d).Accepts κ nameless ∧
      (plan'.statement.render d).Accepts κ nameless := by
  have among : ∃ plan, list libraryModel libraryAuthors [⟨"name", []⟩]
        { filter := [⟨"name", .isIn, .array [.null]⟩] } {} = .ok plan ∧
      plan.statement.filters = [[.isIn ⟨"authors", "name"⟩ [.null]]] := ⟨_, rfl, rfl⟩
  have equal : ∃ plan, list libraryModel libraryAuthors [⟨"name", []⟩]
        { filter := [⟨"name", .eq, .null⟩] } {} = .ok plan ∧
      plan.statement.filters = [[.compare ⟨"authors", "name"⟩ .eq .null]] := ⟨_, rfl, rfl⟩
  obtain ⟨plan, ok, filters⟩ := among
  obtain ⟨plan', ok', filters'⟩ := equal
  refine ⟨plan, plan', ok, ok', fun d κ => ⟨?_, ?_⟩⟩
  · rw [Statement.accepts_render_iff (filled_list ok), filters]
    simp [Condition.holds_isIn]
  · rw [Statement.accepts_render_iff (filled_list ok'), filters']
    simp [Condition.holds_eq, nameless]

end Plan

end EntityGraph
