import EntityGraph.Proofs.Json.Numerals
import Mathlib.Data.List.Forall2

/-!
# Written documents scanned

The scanner finds in the text of a document exactly its tokens. Each kind of token is one
lemma; a document is its tokens one after the other.
-/
namespace EntityGraph.Json

/-! ## Inside a token -/

theorem scan_of_step {scanner next : Scanner} {c : Char} (silent : scanner.step c = some (next, []))
    (rest : List Char) : scanner.scan (c :: rest) = next.scan rest := by
  simp [Scanner.scan, silent]

theorem scan_numeral {cs : List Char} (inside : ∀ c ∈ cs, isNumeralChar c = true)
    (done rest : List Char) :
    (Scanner.numeral done).scan (cs ++ rest) =
      (Scanner.numeral (cs.reverse ++ done)).scan rest := by
  induction cs generalizing done with
  | nil => rfl
  | cons c cs ih =>
    have here := inside c List.mem_cons_self
    have later := ih (fun c mem => inside c (List.mem_cons_of_mem _ mem)) (c :: done)
    rw [List.cons_append, scan_of_step (by rw [Scanner.step, if_pos here]), later,
      List.reverse_cons, List.append_assoc]
    rfl

theorem scan_word {cs : List Char} (inside : ∀ c ∈ cs, isWordChar c = true)
    (done rest : List Char) :
    (Scanner.word done).scan (cs ++ rest) = (Scanner.word (cs.reverse ++ done)).scan rest := by
  induction cs generalizing done with
  | nil => rfl
  | cons c cs ih =>
    have here := inside c List.mem_cons_self
    have later := ih (fun c mem => inside c (List.mem_cons_of_mem _ mem)) (c :: done)
    rw [List.cons_append, scan_of_step (by rw [Scanner.step, if_pos here]), later,
      List.reverse_cons, List.append_assoc]
    rfl

theorem hexValue?_hexDigit : ∀ n < 16, Text.hexValue? (Text.hexDigit n) = some n := by
  decide

/-- A control character is written as a code that is read as the character. -/
theorem scan_control {n : Nat} (control : n < 0x20) (done rest : List Char) :
    (Scanner.text done).scan
        ('\\' :: 'u' :: '0' :: '0' :: Text.hexDigit (n / 16) :: Text.hexDigit (n % 16) :: rest) =
      (Scanner.text (Char.ofNat n :: done)).scan rest := by
  have high := hexValue?_hexDigit (n / 16) (by omega)
  have low := hexValue?_hexDigit (n % 16) (by omega)
  have whole : n / 16 * 16 + n % 16 = n := by omega
  have zero : Text.hexValue? '0' = some 0 := by decide
  have alone : scanCode done none n = some (.text (Char.ofNat n :: done)) := by
    have noFirst : ¬ (0xd800 ≤ n ∧ n < 0xdc00) := by omega
    have noSecond : ¬ (0xdc00 ≤ n ∧ n < 0xe000) := by omega
    simp only [scanCode, if_neg noFirst, if_neg noSecond]
  simp [Scanner.scan, Scanner.step, high, low, zero, whole, alone]

/-- A character is written with a backslash and the character that stands for it. -/
theorem scan_escaped {e c : Char} (short : e ≠ 'u') (stands : escaped? e = some c)
    (done rest : List Char) :
    (Scanner.text done).scan ('\\' :: e :: rest) = (Scanner.text (c :: done)).scan rest := by
  have opened : (Scanner.text done).step '\\' = some (.escape done, []) := rfl
  have closed : (Scanner.escape done).step e = some (.text (c :: done), []) := by
    simp [Scanner.step, short, stands]
  rw [scan_of_step opened, scan_of_step closed]

/-- What is written for a character inside a string is read as the character. -/
theorem scan_writeChar (c : Char) (done rest : List Char) :
    (Scanner.text done).scan (writeChar c ++ rest) = (Scanner.text (c :: done)).scan rest := by
  have named : ∀ {n : Nat}, (c.toNat == n) = true → c = Char.ofNat n := by
    intro n same
    rw [← beq_iff_eq.mp same, Char.ofNat_toNat]
  unfold writeChar
  split
  · rename_i quote
    rw [beq_iff_eq.mp quote]
    exact scan_escaped (by decide) rfl done rest
  · rename_i notQuote
    split
    · rename_i backslash
      rw [beq_iff_eq.mp backslash]
      exact scan_escaped (by decide) rfl done rest
    · rename_i notBackslash
      split
      · rename_i backspace
        rw [named backspace]
        exact scan_escaped (by decide) rfl done rest
      · split
        · rename_i formFeed
          rw [named formFeed]
          exact scan_escaped (by decide) rfl done rest
        · split
          · rename_i newline
            rw [beq_iff_eq.mp newline]
            exact scan_escaped (by decide) rfl done rest
          · split
            · rename_i carriageReturn
              rw [beq_iff_eq.mp carriageReturn]
              exact scan_escaped (by decide) rfl done rest
            · split
              · rename_i tab
                rw [beq_iff_eq.mp tab]
                exact scan_escaped (by decide) rfl done rest
              · split
                · rename_i control
                  have written := scan_control control done rest
                  rw [Char.ofNat_toNat] at written
                  exact written
                · rename_i printed
                  have plain : (Scanner.text done).step c = some (.text (c :: done), []) := by
                    simp [Scanner.step, notQuote, notBackslash, printed]
                  exact scan_of_step plain rest

/-- A string in quotes is one token. -/
theorem scan_writeText (s : String) (rest : List Char) :
    Scanner.between.scan ((writeText s).toList ++ rest) =
      (Scanner.between.scan rest).map (.text s :: ·) := by
  have inside : ∀ (cs done : List Char), (Scanner.text done).scan
      (cs.flatMap writeChar ++ '"' :: rest) =
        (Scanner.text (cs.reverse ++ done)).scan ('"' :: rest) := by
    intro cs
    induction cs with
    | nil => exact fun done => rfl
    | cons c cs ih =>
      intro done
      rw [List.flatMap_cons, List.append_assoc, scan_writeChar, ih, List.reverse_cons,
        List.append_assoc]
      rfl
  have opened : Scanner.between.step '"' = some (.text [], []) := rfl
  have closed : (Scanner.text s.toList.reverse).step '"' = some (.between, [.text s]) := by
    simp [Scanner.step]
  rw [writeText, String.toList_ofList, List.cons_append, List.cons_append,
    scan_of_step opened, List.append_assoc, List.singleton_append, inside, List.append_nil,
    Scanner.scan, closed]
  rfl

/-! ## Documents -/

/-- A text that no numeral and no word goes on into. -/
def Stops (cs : List Char) : Prop :=
  ∀ c ∈ cs.head?, isNumeralChar c = false ∧ isWordChar c = false

/-- The text is read as the tokens wherever a numeral or a word could end. -/
def ScansTo (text : List Char) (tokens : List Token) : Prop :=
  ∀ rest, Stops rest →
    Scanner.between.scan (text ++ rest) = (Scanner.between.scan rest).map (tokens ++ ·)

theorem scansTo_writeText (s : String) : ScansTo (writeText s).toList [.text s] :=
  fun rest _ => scan_writeText s rest

theorem scan_numeral_stop {done rest : List Char} {n : Number}
    (read : Number.ofChars? done.reverse = some n) (stops : Stops rest) :
    (Scanner.numeral done).scan rest = (Scanner.between.scan rest).map ([.number n] ++ ·) := by
  cases rest with
  | nil => simp [Scanner.scan, Scanner.finish, read]
  | cons c rest =>
    have other := (stops c (by simp)).1
    cases next : scanStart c with
    | none => simp [Scanner.scan, Scanner.step, other, next]
    | some found => simp [Scanner.scan, Scanner.step, other, read, next, Function.comp_def]

theorem scan_word_stop {done rest : List Char} {t : Token}
    (read : word? done.reverse = some t) (stops : Stops rest) :
    (Scanner.word done).scan rest = (Scanner.between.scan rest).map ([t] ++ ·) := by
  cases rest with
  | nil => simp [Scanner.scan, Scanner.finish, read]
  | cons c rest =>
    have other := (stops c (by simp)).2
    cases next : scanStart c with
    | none => simp [Scanner.scan, Scanner.step, other, next]
    | some found => simp [Scanner.scan, Scanner.step, other, read, next, Function.comp_def]

theorem scanStart_numeral {c : Char} (first : (c == '-' || Decimal.isDigit c) = true) :
    scanStart c = some (.numeral [c], []) := by
  have other : ∀ d : Char, (d == '-' || Decimal.isDigit d) = false → (c == d) = false := by
    intro d differs
    by_contra same
    rw [Bool.not_eq_false, beq_iff_eq] at same
    rw [same, differs] at first
    cases first
  simp only [scanStart, isBlank, other ' ' rfl, other '\t' rfl, other '\n' rfl, other '\r' rfl,
    other '[' rfl, other ']' rfl, other '\x7b' rfl, other '\x7d' rfl, other ',' rfl,
    other ':' rfl, other '"' rfl, first]
  rfl

theorem scansTo_numeral {cs : List Char} {n : Number} (read : Number.ofChars? cs = some n) :
    ScansTo cs [.number n] := by
  intro rest stops
  obtain ⟨⟨c, tail, rfl, first⟩, inside⟩ := isNumeralChar_of_ofChars? read
  have later : ∀ d ∈ tail, isNumeralChar d = true :=
    fun d mem => inside d (List.mem_cons_of_mem _ mem)
  have opened : Scanner.between.step c = some (.numeral [c], []) := scanStart_numeral first
  rw [List.cons_append, scan_of_step opened, scan_numeral later,
    scan_numeral_stop (by simpa using read) stops]

theorem scansTo_word {c : Char} {cs : List Char} {t : Token}
    (first : scanStart c = some (.word [c], [])) (inside : cs.all isWordChar = true)
    (read : word? (c :: cs) = some t) : ScansTo (c :: cs) [t] := by
  intro rest stops
  have opened : Scanner.between.step c = some (.word [c], []) := first
  rw [List.cons_append, scan_of_step opened, scan_word (List.all_eq_true.mp inside),
    scan_word_stop (by simpa using read) stops]

/-- A character that is a token by itself. -/
structure IsMark (c : Char) (t : Token) : Prop where
  token : scanStart c = some (.between, [t])
  noNumeral : isNumeralChar c = false
  noWord : isWordChar c = false

theorem isMark_openArray : IsMark '[' .openArray := ⟨rfl, rfl, rfl⟩

theorem isMark_closeArray : IsMark ']' .closeArray := ⟨rfl, rfl, rfl⟩

theorem isMark_openObject : IsMark '\x7b' .openObject := ⟨rfl, rfl, rfl⟩

theorem isMark_closeObject : IsMark '\x7d' .closeObject := ⟨rfl, rfl, rfl⟩

theorem isMark_comma : IsMark ',' .comma := ⟨rfl, rfl, rfl⟩

theorem isMark_colon : IsMark ':' .colon := ⟨rfl, rfl, rfl⟩

theorem ScansTo.nil : ScansTo [] [] := by
  intro rest _
  simp

theorem ScansTo.mark {c : Char} {t : Token} (mark : IsMark c t) {text : List Char}
    {tokens : List Token} (later : ScansTo text tokens) : ScansTo (c :: text) (t :: tokens) := by
  intro rest stops
  have here : Scanner.between.step c = some (.between, [t]) := mark.token
  rw [List.cons_append, Scanner.scan, here]
  dsimp only
  rw [later rest stops, Option.map_map]
  rfl

theorem ScansTo.then_mark {front back : List Char} {frontTokens backTokens : List Token}
    (first : ScansTo front frontTokens) {c : Char} {t : Token} (mark : IsMark c t)
    (later : ScansTo back backTokens) :
    ScansTo (front ++ c :: back) (frontTokens ++ t :: backTokens) := by
  intro rest stops
  have between : Stops (c :: back ++ rest) := by
    intro d mem
    rw [List.cons_append, List.head?_cons, Option.mem_some_iff] at mem
    exact mem ▸ ⟨mark.noNumeral, mark.noWord⟩
  rw [List.append_assoc, first _ between, ScansTo.mark mark later rest stops, Option.map_map]
  exact congrArg (Option.map · (Scanner.between.scan rest))
    (funext fun ts => (List.append_assoc frontTokens (t :: backTokens) ts).symm)

mutual

/-- The tokens that write a document. -/
def tokens : Json → List Token
  | .null => [.null]
  | .bool b => [.bool b]
  | .number n => [.number n]
  | .text s => [.text s]
  | .array items => .openArray :: (itemTokens items ++ [.closeArray])
  | .object members => .openObject :: (memberTokens members ++ [.closeObject])

def itemTokens : List Json → List Token
  | [] => []
  | [v] => tokens v
  | v :: w :: rest => tokens v ++ .comma :: itemTokens (w :: rest)

def memberTokens : List (String × Json) → List Token
  | [] => []
  | [(k, v)] => .text k :: .colon :: tokens v
  | (k, v) :: m :: rest => .text k :: .colon :: (tokens v ++ .comma :: memberTokens (m :: rest))

end

/-- A document that is read as it is written: its numbers read back, the names of members are
distinct, and at most `room` arrays and objects lie inside each other. -/
inductive Legible : Nat → Json → Prop
  | null {room : Nat} : Legible room .null
  | bool {room : Nat} (b : Bool) : Legible room (.bool b)
  | number {room : Nat} {n : Number} (read : n.ReadsBack) : Legible room (.number n)
  | text {room : Nat} (s : String) : Legible room (.text s)
  | array {room : Nat} {items : List Json} (inside : ∀ v ∈ items, Legible room v) :
      Legible (room + 1) (.array items)
  | object {room : Nat} {members : List (String × Json)}
      (names : (members.map Prod.fst).Nodup) (inside : ∀ m ∈ members, Legible room m.2) :
      Legible (room + 1) (.object members)

theorem scansTo_writeItems {items read : List Json}
    (each : List.Forall₂ (fun v w => ScansTo v.write.toList w.tokens) items read) :
    ScansTo (writeItems items).toList (itemTokens read) := by
  induction each with
  | nil => exact ScansTo.nil
  | cons here others ih =>
    cases others with
    | nil => exact here
    | cons next others =>
      rw [writeItems, itemTokens]
      simpa using here.then_mark isMark_comma ih

/-- An array is read as the array of what its items are read as. -/
theorem scansTo_writeArray {items read : List Json}
    (each : List.Forall₂ (fun v w => ScansTo v.write.toList w.tokens) items read) :
    ScansTo (Json.array items).write.toList (Json.array read).tokens := by
  have whole := (scansTo_writeItems each).then_mark isMark_closeArray ScansTo.nil
  simpa [write, tokens] using whole.mark isMark_openArray

theorem scansTo_writeMembers {members : List (String × Json)}
    (each : ∀ m ∈ members, ScansTo m.2.write.toList m.2.tokens) :
    ScansTo (writeMembers members).toList (memberTokens members) := by
  induction members with
  | nil => exact ScansTo.nil
  | cons m rest ih =>
    obtain ⟨name, v⟩ := m
    have here := (scansTo_writeText name).then_mark isMark_colon (each _ List.mem_cons_self)
    have later := ih fun v mem => each v (List.mem_cons_of_mem _ mem)
    cases rest with
    | nil =>
      rw [writeMembers, memberTokens]
      simpa using here
    | cons next rest =>
      rw [writeMembers, memberTokens]
      simpa using here.then_mark isMark_comma later

/-- The text of a document is read as its tokens. -/
theorem scansTo_write {room : Nat} {v : Json} (legible : v.Legible room) :
    ScansTo v.write.toList v.tokens := by
  induction legible with
  | null =>
    have word : ScansTo ['n', 'u', 'l', 'l'] [.null] := scansTo_word rfl rfl rfl
    exact word
  | bool b =>
    cases b with
    | true =>
      have word : ScansTo ['t', 'r', 'u', 'e'] [.bool true] := scansTo_word rfl rfl rfl
      exact word
    | false =>
      have word : ScansTo ['f', 'a', 'l', 's', 'e'] [.bool false] :=
        scansTo_word rfl rfl rfl
      exact word
  | number read => exact scansTo_numeral read
  | text s => exact scansTo_writeText s
  | array inside ih => exact scansTo_writeArray (List.forall₂_same.mpr ih)
  | object names inside ih =>
    have members := (scansTo_writeMembers ih).then_mark isMark_closeObject ScansTo.nil
    simpa [write, tokens] using members.mark isMark_openObject

theorem scan_of_scansTo {text : List Char} {tokens : List Token} (scans : ScansTo text tokens) :
    Scanner.between.scan text = some tokens := by
  have whole := scans [] (by simp [Stops])
  simpa [Scanner.scan, Scanner.finish] using whole

end EntityGraph.Json
