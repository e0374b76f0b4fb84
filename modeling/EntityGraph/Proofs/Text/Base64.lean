import EntityGraph.Text.Base64

/-!
# Base 64 read back

Text comes back from its bytes, and bytes come back from their base 64 text.
-/
namespace EntityGraph.Text

theorem ofBytes?_toBytes (s : String) : ofBytes? (toBytes s) = some s := by
  have bytes : (⟨(toBytes s).toArray⟩ : ByteArray) = s.toByteArray := by
    simp [toBytes]
  rw [ofBytes?, bytes, String.fromUTF8?, dif_pos s.isValidUTF8]
  rfl

theorem utf8EncodeChar_ascii :
    ∀ n < 128, String.utf8EncodeChar (Char.ofNat n) = [UInt8.ofNat n] := by
  decide +kernel

/-- A byte that is a character by itself is its only byte. -/
theorem toBytes_ofList_ascii {bs : List UInt8} (ascii : ∀ b ∈ bs, b.toNat < 128) :
    toBytes (String.ofList (bs.map fun b => Char.ofNat b.toNat)) = bs := by
  rw [toBytes, String.toUTF8_eq_toByteArray, String.toByteArray_ofList]
  induction bs with
  | nil => simp
  | cons b bs ih =>
    have first := utf8EncodeChar_ascii b.toNat (ascii b List.mem_cons_self)
    rw [UInt8.ofNat_toNat] at first
    have rest := ih fun b mem => ascii b (List.mem_cons_of_mem _ mem)
    rw [List.map_cons, List.utf8Encode_cons, List.utf8Encode_singleton, first,
      ByteArray.data_append, Array.toList_append, rest]
    simp

namespace Base64

theorem number?_symbol : ∀ n < 64, number? (symbol n) = some n := by
  decide

theorem symbol_ne_pad : ∀ n < 64, (symbol n != pad) = true := by
  decide

theorem symbol_ascii : ∀ n < 64, (symbol n).toNat < 128 := by
  decide

theorem numbers_symbols {ns : List Nat} (small : ∀ n ∈ ns, n < 64) (offset : Nat) :
    numbers offset (ns.map symbol) = .ok ns := by
  induction ns generalizing offset with
  | nil => rfl
  | cons n ns ih =>
    rw [List.map_cons, numbers, number?_symbol n (small n List.mem_cons_self)]
    simp only [ih (fun n mem => small n (List.mem_cons_of_mem _ mem))]

/-- A last quad of symbols and padding is read if no bits are left over. -/
theorem lastQuad_symbols {ns : List Nat} (small : ∀ n ∈ ns, n < 64) {pads : Nat}
    (enough : ns = [] ∧ pads = 0 ∨ 2 ≤ ns.length) (whole : (ns.length + pads) % 4 = 0)
    {bytes : List UInt8} (joined : joinBits ns = (bytes, false)) (offset : Nat) :
    lastQuad offset (ns.map symbol ++ List.replicate pads pad) = .ok bytes := by
  have all : ∀ b ∈ ns.map symbol, (b != pad) = true := by
    intro b mem
    obtain ⟨n, memN, rfl⟩ := List.mem_map.mp mem
    exact symbol_ne_pad n (small n memN)
  have none : ∀ b ∈ List.replicate pads pad, ¬ (b != pad) = true := by
    intro b mem
    rw [List.eq_of_mem_replicate mem]
    decide
  have symbols : (ns.map symbol ++ List.replicate pads pad).takeWhile (· != pad) =
      ns.map symbol := by
    rw [List.takeWhile_append_of_pos all]
    cases pads with
    | zero => simp
    | succ k => simp [List.replicate_succ]
  have rest : (ns.map symbol ++ List.replicate pads pad).dropWhile (· != pad) =
      List.replicate pads pad := by
    rw [List.dropWhile_append_of_pos all]
    cases pads with
    | zero => rfl
    | succ k => simp [List.replicate_succ]
  unfold lastQuad
  simp only [symbols, rest, numbers_symbols small]
  rcases enough with ⟨rfl, rfl⟩ | two
  · cases joined
    rfl
  · have notShort : ¬ ns.length < 2 := by omega
    simp [notShort, whole, joined]

/-- Three bytes are four symbols. -/
theorem exists_quad (a b c : UInt8) : ∃ ns : List Nat, ns.length = 4 ∧ (∀ n ∈ ns, n < 64) ∧
    joinBits ns = ([a, b, c], false) ∧
    ∀ rest, encodeBytes (a :: b :: c :: rest) = ns.map symbol ++ encodeBytes rest := by
  have boundA := a.toNat_lt
  have boundB := b.toNat_lt
  have boundC := c.toNat_lt
  obtain ⟨n, total⟩ : ∃ n, n = a.toNat * 65536 + b.toNat * 256 + c.toNat := ⟨_, rfl⟩
  refine ⟨[n / 262144, n / 4096 % 64, n / 64 % 64, n % 64], rfl, ?_, ?_, ?_⟩
  · simp only [List.mem_cons, List.not_mem_nil, or_false, forall_eq_or_imp, forall_eq]
    omega
  · have back : ((n / 262144 * 64 + n / 4096 % 64) * 64 + n / 64 % 64) * 64 + n % 64 = n := by
      omega
    have first : n / 65536 = a.toNat := by omega
    have second : n / 256 % 256 = b.toNat := by omega
    have third : n % 256 = c.toNat := by omega
    simp only [joinBits, back, first, second, third, UInt8.ofNat_toNat]
  · intro rest
    simp only [encodeBytes, ← total]
    rfl

/-- Fewer than three bytes are symbols and padding. -/
theorem exists_last {bs : List UInt8} (short : bs.length < 3) : ∃ (ns : List Nat) (pads : Nat),
    (∀ n ∈ ns, n < 64) ∧ (ns = [] ∧ pads = 0 ∨ 2 ≤ ns.length) ∧ (ns.length + pads) % 4 = 0 ∧
    joinBits ns = (bs, false) ∧ encodeBytes bs = ns.map symbol ++ List.replicate pads pad := by
  match bs with
  | [] => exact ⟨[], 0, by simp, Or.inl ⟨rfl, rfl⟩, rfl, rfl, by simp [encodeBytes]⟩
  | [a] =>
    have bound := a.toNat_lt
    obtain ⟨n, total⟩ : ∃ n, n = a.toNat * 16 := ⟨_, rfl⟩
    refine ⟨[n / 64, n % 64], 2, ?_, Or.inr (by simp), by simp, ?_, ?_⟩
    · simp only [List.mem_cons, List.not_mem_nil, or_false, forall_eq_or_imp, forall_eq]
      omega
    · have back : n / 64 * 64 + n % 64 = n := by omega
      have first : n / 16 = a.toNat := by omega
      have none : n % 16 = 0 := by omega
      simp only [joinBits, back, first, none, UInt8.ofNat_toNat]
      rfl
    · simp only [encodeBytes, ← total]
      rfl
  | [a, b] =>
    have boundA := a.toNat_lt
    have boundB := b.toNat_lt
    obtain ⟨n, total⟩ : ∃ n, n = (a.toNat * 256 + b.toNat) * 4 := ⟨_, rfl⟩
    refine ⟨[n / 4096, n / 64 % 64, n % 64], 1, ?_, Or.inr (by simp), by simp, ?_, ?_⟩
    · simp only [List.mem_cons, List.not_mem_nil, or_false, forall_eq_or_imp, forall_eq]
      omega
    · have back : (n / 4096 * 64 + n / 64 % 64) * 64 + n % 64 = n := by omega
      have first : n / 1024 = a.toNat := by omega
      have second : n / 4 % 256 = b.toNat := by omega
      have none : n % 4 = 0 := by omega
      simp only [joinBits, back, first, second, none, UInt8.ofNat_toNat]
      rfl
    · simp only [encodeBytes, ← total]
      rfl
  | _ :: _ :: _ :: _ =>
    simp only [List.length_cons] at short
    omega

/-- Quads are written one after the other, the last of them short or padded. -/
theorem encodeBytes_cases {P : List UInt8 → Prop} (last : ∀ bs, bs.length < 3 → P bs)
    (quad : ∀ a b c rest, P rest → P (a :: b :: c :: rest)) : ∀ bs, P bs
  | [] => last [] (by simp)
  | [a] => last [a] (by simp)
  | [a, b] => last [a, b] (by simp)
  | a :: b :: c :: rest => quad a b c rest (encodeBytes_cases last quad rest)

theorem encodeBytes_length (bs : List UInt8) : (encodeBytes bs).length % 4 = 0 := by
  induction bs using encodeBytes_cases with
  | last bs short =>
    obtain ⟨ns, pads, -, -, whole, -, written⟩ := exists_last short
    rw [written, List.length_append, List.length_map, List.length_replicate, whole]
  | quad a b c rest ih =>
    obtain ⟨ns, four, -, -, written⟩ := exists_quad a b c
    rw [written, List.length_append, List.length_map, four]
    omega

theorem encodeBytes_ascii (bs : List UInt8) : ∀ b ∈ encodeBytes bs, b.toNat < 128 := by
  have symbols : ∀ ns : List Nat, (∀ n ∈ ns, n < 64) → ∀ b ∈ ns.map symbol, b.toNat < 128 := by
    intro ns small b mem
    obtain ⟨n, memN, rfl⟩ := List.mem_map.mp mem
    exact symbol_ascii n (small n memN)
  induction bs using encodeBytes_cases with
  | last bs short =>
    obtain ⟨ns, pads, small, -, -, -, written⟩ := exists_last short
    intro b mem
    rw [written] at mem
    rcases List.mem_append.mp mem with inside | padding
    · exact symbols ns small b inside
    · rw [List.eq_of_mem_replicate padding]
      decide
  | quad a b c rest ih =>
    obtain ⟨ns, -, small, -, written⟩ := exists_quad a b c
    intro byte mem
    rw [written] at mem
    rcases List.mem_append.mp mem with inside | later
    · exact symbols ns small byte inside
    · exact ih byte later

/-- What is no longer than a quad is read as the last one. -/
theorem quads_eq_lastQuad {bs : List UInt8} (short : bs.length ≤ 4) (offset : Nat) :
    quads offset bs = lastQuad offset bs := by
  unfold quads
  split
  · simp only [List.length_cons] at short
    omega
  · rfl

/-- A quad with more after it is read by itself. -/
theorem quads_symbols {ns : List Nat} (four : ns.length = 4) (small : ∀ n ∈ ns, n < 64)
    {more : List UInt8} (some : more ≠ []) {bytes : List UInt8} {offset : Nat}
    (later : quads (offset + 4) more = .ok bytes) :
    quads offset (ns.map symbol ++ more) = .ok ((joinBits ns).1 ++ bytes) := by
  obtain ⟨e, rest, rfl⟩ := List.exists_cons_of_ne_nil some
  match ns, four with
  | [a, b, c, d], _ =>
    have symbols := numbers_symbols small offset
    simp only [List.map_cons, List.map_nil] at symbols
    simp only [List.map_cons, List.map_nil, List.cons_append, List.nil_append, quads, symbols,
      later]

theorem encodeBytes_length_le {bs : List UInt8} (short : bs.length < 3) :
    (encodeBytes bs).length ≤ 4 := by
  match bs with
  | [] | [_] | [_, _] => simp [encodeBytes]
  | _ :: _ :: _ :: _ =>
    simp only [List.length_cons] at short
    omega

theorem encodeBytes_eq_nil {bs : List UInt8} : encodeBytes bs = [] ↔ bs = [] := by
  constructor
  · intro none
    match bs with
    | [] => rfl
    | [_] | [_, _] | _ :: _ :: _ :: _ => simp [encodeBytes] at none
  · rintro rfl
    rfl

/-- Reading what has been written gives the bytes. -/
theorem quads_encodeBytes (bs : List UInt8) (offset : Nat) :
    quads offset (encodeBytes bs) = .ok bs := by
  induction bs using encodeBytes_cases generalizing offset with
  | last bs short =>
    obtain ⟨ns, pads, small, enough, whole, joined, written⟩ := exists_last short
    have atMost := encodeBytes_length_le short
    rw [quads_eq_lastQuad atMost, written, lastQuad_symbols small enough whole joined]
  | quad a b c rest ih =>
    obtain ⟨ns, four, small, joined, written⟩ := exists_quad a b c
    rw [written]
    by_cases more : encodeBytes rest = []
    · have whole : (ns.length + 0) % 4 = 0 := by omega
      have last := lastQuad_symbols small (Or.inr (by omega)) whole joined offset
      rw [more, List.append_nil, quads_eq_lastQuad (by simp [four]), encodeBytes_eq_nil.mp more]
      simpa using last
    · rw [quads_symbols four small more (ih (offset + 4)), joined]
      rfl

theorem decode_encode (bs : List UInt8) : decode (encode bs) = .ok bs := by
  have notStray : strayByte (encodeBytes bs) = none := by
    rw [strayByte, if_neg]
    have whole := encodeBytes_length bs
    omega
  unfold decode
  rw [encode, toBytes_ofList_ascii (encodeBytes_ascii bs)]
  simp only [notStray, quads_encodeBytes]

end Base64

end EntityGraph.Text
