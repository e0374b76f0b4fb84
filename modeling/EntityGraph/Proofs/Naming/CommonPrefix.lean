import Mathlib.Data.List.Infix
import EntityGraph.Naming.Strategy

/-!
# What names have in common

What names have in common is counted in bytes: names are compared character by character, but the
length that is kept, and from name to name made smaller, is one in bytes, and the first name is
cut after that many. It is shown that every such length is that of whole characters, that these
are the longest ones with which all names so far start, and so that the cut is always between two
characters and what it leaves is the longest prefix of all names.
-/
namespace EntityGraph.NamingStrategy

/-- Whether all these names start with a text. -/
def StartsAll (p : String) (names : List String) : Prop :=
  ∀ name ∈ names, p.toList <+: name.toList

instance (p : String) (names : List String) : Decidable (StartsAll p names) :=
  inferInstanceAs (Decidable (∀ name ∈ names, p.toList <+: name.toList))

/-! ## Characters and bytes -/

/-- How many bytes characters take. -/
def byteCount (cs : List Char) : Nat :=
  (String.ofList cs).utf8ByteSize

theorem byteCount_cons (c : Char) (cs : List Char) :
    byteCount (c :: cs) = c.utf8Size + byteCount cs := by
  rw [byteCount, String.ofList_cons, String.utf8ByteSize_append, String.utf8ByteSize_singleton]
  rfl

theorem byteCount_append (cs ds : List Char) :
    byteCount (cs ++ ds) = byteCount cs + byteCount ds := by
  rw [byteCount, String.ofList_append, String.utf8ByteSize_append]
  rfl

theorem byteCount_pos {cs : List Char} (some : cs ≠ []) : 0 < byteCount cs := by
  obtain ⟨c, ds, rfl⟩ := List.exists_cons_of_ne_nil some
  have size := c.utf8Size_pos
  rw [byteCount_cons]
  omega

theorem byteCount_le {cs ds : List Char} (start : cs <+: ds) : byteCount cs ≤ byteCount ds := by
  obtain ⟨rest, rfl⟩ := start
  rw [byteCount_append]
  exact Nat.le_add_right _ _

/-- A text can be cut behind whole characters, and they are what is cut off. -/
theorem firstBytes?_byteCount {s : String} {cs : List Char} (start : cs <+: s.toList) :
    String.Pos.Raw.IsValid s ⟨byteCount cs⟩ ∧
      firstBytes? s (byteCount cs) = some (String.ofList cs) := by
  obtain ⟨rest, whole⟩ := start
  have parts : s = String.ofList cs ++ String.ofList rest := by
    rw [← String.ofList_append, whole, String.ofList_toList]
  have between : String.Pos.Raw.IsValid s ⟨byteCount cs⟩ :=
    String.Pos.Raw.isValid_iff_exists_append.mpr ⟨_, _, parts, rfl⟩
  have splits : (s.pos ⟨byteCount cs⟩ between).Splits (String.ofList cs) (String.ofList rest) :=
    ⟨parts, rfl⟩
  refine ⟨between, ?_⟩
  rw [firstBytes?, dif_pos between, splits.copy_sliceTo_eq]

/-! ## Two names -/

/-- The characters that two texts have in common from the start. -/
def commonChars : List Char → List Char → List Char
  | a :: as, b :: bs => if a = b then a :: commonChars as bs else []
  | _, _ => []

theorem prefix_commonChars_iff {cs as bs : List Char} :
    cs <+: commonChars as bs ↔ cs <+: as ∧ cs <+: bs := by
  induction as generalizing cs bs with
  | nil =>
    rw [commonChars]
    · exact ⟨fun start => ⟨start, (List.prefix_nil.mp start) ▸ List.nil_prefix⟩, And.left⟩
    · simp
  | cons a as ih =>
    cases bs with
    | nil => exact ⟨fun start => ⟨(List.prefix_nil.mp start) ▸ List.nil_prefix, start⟩, And.right⟩
    | cons b bs =>
      cases cs with
      | nil => simp
      | cons c cs =>
        by_cases same : a = b
        · subst same
          rw [commonChars, if_pos rfl, List.cons_prefix_cons, List.cons_prefix_cons,
            List.cons_prefix_cons, ih]
          exact and_and_left
        · rw [commonChars, if_neg same, List.cons_prefix_cons, List.cons_prefix_cons]
          refine ⟨fun start => absurd (List.prefix_nil.mp start) (List.cons_ne_nil c cs), ?_⟩
          rintro ⟨⟨first, -⟩, second, -⟩
          exact absurd (first.symm.trans second) same

/-- Where the characters end in which two texts agree, if the first text starts at a byte. -/
theorem agreed_end (start : Nat) (as bs : List Char) :
    (((placed start as).zip bs).takeWhile fun ((_, a), b) => a == b).getLast?.elim start
      (fun ((i, c), _) => i + c.utf8Size) = start + byteCount (commonChars as bs) := by
  induction as generalizing start bs with
  | nil => rfl
  | cons a as ih =>
    cases bs with
    | nil => rfl
    | cons b bs =>
      by_cases same : a = b
      · have next := ih (start + a.utf8Size) bs
        rw [commonChars, if_pos same, byteCount_cons, ← Nat.add_assoc, ← next, placed,
          List.zip_cons_cons, List.takeWhile_cons_of_pos (by simpa using same),
          List.getLast?_cons]
        -- the last character is this one if there is none further on
        cases (((placed (start + a.utf8Size) as).zip bs).takeWhile
          fun ((_, a), b) => a == b).getLast? <;> rfl
      · rw [commonChars, if_neg same, placed, List.zip_cons_cons,
          List.takeWhile_cons_of_neg (by simpa using same)]
        rfl

theorem sharedBytes_eq (s t : String) :
    sharedBytes s t = byteCount (commonChars s.toList t.toList) := by
  rw [sharedBytes, agreed_end, Nat.zero_add]

/-! ## Any number of names

The loop goes through the names with a number of bytes. What it keeps is that they are those of
the characters with which all names seen so far start.
-/

/-- Whether a number of bytes is that of the characters with which a text and all names seen so
far start. -/
def Spans (first : String) (seen : List String) (n : Nat) : Prop :=
  ∃ cs, n = byteCount cs ∧
    ∀ ds, ds <+: cs ↔ ds <+: first.toList ∧ ∀ name ∈ seen, ds <+: name.toList

theorem spans_nil (first : String) : Spans first [] first.utf8ByteSize :=
  ⟨first.toList, by rw [byteCount, String.ofList_toList], by simp⟩

/-- Of two lengths of prefixes the smaller one is that of what both prefixes start with. -/
theorem Spans.next {first : String} {seen : List String} {n : Nat} (spans : Spans first seen n)
    (name : String) : Spans first (seen ++ [name]) (min (sharedBytes first name) n) := by
  obtain ⟨cs, rfl, starts⟩ := spans
  let both := commonChars first.toList name.toList
  have common : ∀ ds, ds <+: both ∧ ds <+: cs ↔
      ds <+: first.toList ∧ ∀ other ∈ seen ++ [name], ds <+: other.toList := by
    intro ds
    rw [prefix_commonChars_iff, starts, List.forall_mem_append, List.forall_mem_singleton]
    constructor
    · exact fun ⟨⟨front, other⟩, _, earlier⟩ => ⟨front, earlier, other⟩
    · exact fun ⟨front, earlier, other⟩ => ⟨⟨front, other⟩, front, earlier⟩
  have insideBoth : both <+: first.toList := (prefix_commonChars_iff.mp List.prefix_rfl).1
  have inside : cs <+: first.toList := ((starts cs).mp List.prefix_rfl).1
  rw [sharedBytes_eq]
  rcases List.prefix_or_prefix_of_prefix insideBoth inside with shorter | shorter
  · refine ⟨both, Nat.min_eq_left (byteCount_le shorter), fun ds => ?_⟩
    rw [← common ds, and_iff_left_of_imp fun start => start.trans shorter]
  · refine ⟨cs, Nat.min_eq_right (byteCount_le shorter), fun ds => ?_⟩
    rw [← common ds, and_iff_right_of_imp fun start => start.trans shorter]

theorem spans_sharedByAll (first : String) (others : List String) :
    Spans first others (sharedByAll first others) := by
  have run : ∀ (others seen : List String) (n : Nat), Spans first seen n →
      Spans first (seen ++ others)
        (others.foldl (fun n other => min (sharedBytes first other) n) n) := by
    intro others
    induction others with
    | nil => exact fun seen n spans => by rwa [List.append_nil]
    | cons name others ih =>
      intro seen n spans
      have rest := ih (seen ++ [name]) _ (spans.next name)
      rwa [List.append_assoc] at rest
  exact run others [] _ (spans_nil first)

/-- What the first name is cut down to: the characters with which all names start. -/
theorem exists_cut (first : String) (others : List String) :
    ∃ p, String.Pos.Raw.IsValid first ⟨sharedByAll first others⟩ ∧
      firstBytes? first (sharedByAll first others) = some p ∧
      (0 < sharedByAll first others ↔ p ≠ "") ∧
      ∀ q : String, q.toList <+: p.toList ↔ StartsAll q (first :: others) := by
  obtain ⟨cs, count, starts⟩ := spans_sharedByAll first others
  have inside : cs <+: first.toList := ((starts cs).mp List.prefix_rfl).1
  obtain ⟨between, cut⟩ := firstBytes?_byteCount inside
  rw [count]
  refine ⟨String.ofList cs, between, cut, ?_, fun q => ?_⟩
  · constructor
    · intro bytes none
      rw [byteCount, none, String.utf8ByteSize_empty] at bytes
      exact Nat.lt_irrefl 0 bytes
    · intro some
      refine byteCount_pos fun none => some ?_
      rw [none, String.ofList_nil]
  · rw [String.toList_ofList, starts, StartsAll, List.forall_mem_cons]

/-- Of two or more names the common prefix is that text, unless it is empty. -/
theorem exists_commonPrefix? (first second : String) (rest : List String) :
    ∃ p, commonPrefix? (first :: second :: rest) = (if p = "" then none else some p) ∧
      ∀ q : String, q.toList <+: p.toList ↔ StartsAll q (first :: second :: rest) := by
  obtain ⟨p, -, cut, some, longest⟩ := exists_cut first (second :: rest)
  refine ⟨p, ?_, longest⟩
  rw [commonPrefix?]
  by_cases none : p = ""
  · have bytes : ¬ 0 < sharedByAll first (second :: rest) := fun pos => some.mp pos none
    rw [if_pos none, if_neg bytes]
  · rw [if_neg none, if_pos (some.mpr none), cut]

/-- Names have a common prefix exactly if they are two or more and all start with some text that
is not empty. What is found is then a text with which all of them start, and every text with which
all of them start is a prefix of it. The number of bytes after which the first name is cut is
between two characters, whatever the names are. -/
theorem commonPrefix?_longest (names : List String) :
    ((∃ p, commonPrefix? names = some p) ↔
      2 ≤ names.length ∧ ∃ p, p ≠ "" ∧ StartsAll p names) ∧
    (∀ p, commonPrefix? names = some p → StartsAll p names ∧
      ∀ q, StartsAll q names → q.toList <+: p.toList ∧ q.length ≤ p.length) ∧
    ∀ first others, names = first :: others →
      String.Pos.Raw.IsValid first ⟨sharedByAll first others⟩ ∧
        firstBytes? first (sharedByAll first others) ≠ none := by
  refine ⟨?_, fun p found => ?_, ?_⟩
  · match names with
    | [] => simp [commonPrefix?]
    | [name] => simp [commonPrefix?]
    | first :: second :: rest =>
      obtain ⟨p, found, longest⟩ := exists_commonPrefix? first second rest
      rw [found]
      constructor
      · rintro ⟨q, same⟩
        have filled : p ≠ "" := fun none => by simp [none] at same
        exact ⟨by simp, p, filled, (longest p).mp List.prefix_rfl⟩
      · rintro ⟨-, q, filled, starts⟩
        refine ⟨p, if_neg fun none => filled ?_⟩
        rw [none] at longest
        exact String.toList_eq_nil_iff.mp (List.prefix_nil.mp ((longest q).mpr starts))
  · match names with
    | first :: second :: rest =>
      obtain ⟨p', found', longest⟩ := exists_commonPrefix? first second rest
      obtain rfl : p' = p := by
        rw [found'] at found
        split at found
        · cases found
        · exact Option.some.inj found
      refine ⟨(longest p').mp List.prefix_rfl, fun q starts => ?_⟩
      have start := (longest q).mpr starts
      exact ⟨start, start.length_le⟩
  · rintro first others rfl
    obtain ⟨p, between, cut, -⟩ := exists_cut first others
    exact ⟨between, by simp [cut]⟩

/-- Names that go on with different characters of the same first byte. -/
def islandNames : List String :=
  ["îleÉtat", "îleÈre", "îleId"]

/-- The first two names have five bytes in common, the last of which is half a character. -/
theorem commonPrefix?_longest_of_islands :
    commonPrefix? islandNames = some "île" ∧ StartsAll "île" islandNames ∧
      StartsAll "îl" islandNames ∧ "îl".toList <+: "île".toList ∧
      String.Pos.Raw.IsValid "îleÉtat" ⟨sharedByAll "îleÉtat" ["îleÈre", "îleId"]⟩ ∧
      sharedByAll "îleÉtat" ["îleÈre", "îleId"] = 4 ∧
      ¬ String.Pos.Raw.IsValid "îleÉtat" ⟨5⟩ := by
  have found : commonPrefix? islandNames = some "île" := by decide +kernel
  have starts : StartsAll "îl" islandNames := by decide +kernel
  obtain ⟨-, longest, cuts⟩ := commonPrefix?_longest islandNames
  obtain ⟨all, others⟩ := longest _ found
  refine ⟨found, all, starts, (others _ starts).1, (cuts _ _ rfl).1, ?_, ?_⟩
  · decide +kernel
  · decide +kernel

end EntityGraph.NamingStrategy
