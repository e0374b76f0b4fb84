import EntityGraph.Json.Reader
import EntityGraph.Proofs.Json.Scanned
import EntityGraph.Proofs.Keyed

/-!
# Documents read back

Written and read again, a document comes back as it was: its members in their order, integers
as integers and reals as reals. The tokens of a document take the reader from where a value is
expected to where that value has been delivered.
-/
namespace EntityGraph.Json

/-- The tokens bring the reader from one place to the next, whatever follows them. -/
def Reader.Takes (start : Reader) (tokens : List Token) (next : Option Reader) : Prop :=
  ∀ rest, start.run (tokens ++ rest) = next.bind (·.run rest)

theorem Reader.takes_one {start : Reader} {t : Token} {next : Option Reader}
    (accepts : start.accept t = next) : start.Takes [t] next := by
  intro rest
  rw [List.singleton_append, Reader.run, accepts]
  cases next <;> rfl

theorem Reader.Takes.append {start middle : Reader} {front back : List Token}
    {next : Option Reader} (first : start.Takes front (some middle))
    (later : middle.Takes back next) : start.Takes (front ++ back) next := by
  intro rest
  rw [List.append_assoc, first, Option.bind_some, later]

theorem Reader.Takes.cons {start middle : Reader} {t : Token} {back : List Token}
    {next : Option Reader} (accepts : start.accept t = some middle)
    (later : middle.Takes back next) : start.Takes (t :: back) next :=
  (Reader.takes_one accepts).append later

/-- Where an array may close, a first value is read as where only a value may come. -/
theorem run_valueOrClose (stack : List Frame) (v : Json) (rest : List Json)
    (more : List Token) :
    (⟨.valueOrClose, stack⟩ : Reader).run (itemTokens (v :: rest) ++ [.closeArray] ++ more) =
      (⟨.value, stack⟩ : Reader).run (itemTokens (v :: rest) ++ [.closeArray] ++ more) := by
  cases rest <;> cases v <;> rfl

/-- Where an object may close, a first member is read as where only a member may come. -/
theorem run_nameOrClose (stack : List Frame) (m : String × Json) (rest : List (String × Json))
    (more : List Token) :
    (⟨.nameOrClose, stack⟩ : Reader).run (memberTokens (m :: rest) ++ [.closeObject] ++ more) =
      (⟨.name, stack⟩ : Reader).run (memberTokens (m :: rest) ++ [.closeObject] ++ more) := by
  cases rest <;> rfl

theorem fresh_of_names {name : String} {v : Json} {done rest : List (String × Json)}
    (names : ((done ++ (name, v) :: rest).map Prod.fst).Nodup) : name ∉ done.map Prod.fst := by
  intro known
  rw [List.map_append, List.map_cons] at names
  exact (List.nodup_append.mp names).2.2 _ known _ List.mem_cons_self rfl

/-- Where a value is expected, the tokens of the document deliver it. -/
def Delivered (room : Nat) (v : Json) : Prop :=
  ∀ stack : List Frame, stack.length + room ≤ maxDepth →
    (⟨.value, stack⟩ : Reader).Takes v.tokens (deliver v stack)

theorem takes_items {room : Nat} {v : Json} {rest : List Json}
    (each : ∀ w ∈ v :: rest, Delivered room w) {stack : List Frame}
    (fits : stack.length + (room + 1) ≤ maxDepth) (done : List Json) :
    (⟨.value, .array done :: stack⟩ : Reader).Takes (itemTokens (v :: rest) ++ [.closeArray])
      (deliver (.array (done.reverse ++ v :: rest)) stack) := by
  have inner : (Frame.array done :: stack).length + room ≤ maxDepth := by
    rw [List.length_cons]
    omega
  have here := each v List.mem_cons_self _ inner
  induction rest generalizing v done with
  | nil =>
    rw [itemTokens]
    refine here.append (Reader.takes_one ?_)
    simp [Reader.accept, acceptSeparator, acceptClose]
  | cons w rest ih =>
    have later := ih (fun u mem => each u (List.mem_cons_of_mem _ mem)) (v :: done) inner
      (each w (by simp) _ inner)
    rw [itemTokens, List.append_assoc, List.cons_append]
    refine here.append (Reader.Takes.cons rfl ?_)
    simpa using later

theorem takes_member {room : Nat} {name : String} {v : Json} (value : Delivered room v)
    {stack : List Frame} (fits : stack.length + (room + 1) ≤ maxDepth)
    {done : List (String × Json)} (fresh : name ∉ done.map Prod.fst) :
    (⟨.name, .object done :: stack⟩ : Reader).Takes (.text name :: .colon :: v.tokens)
      (some ⟨.separator, .object (done ++ [(name, v)]) :: stack⟩) := by
  have inner : (Frame.member done name :: stack).length + room ≤ maxDepth := by
    rw [List.length_cons]
    omega
  have here := value _ inner
  have put := @Keyed.put_of_fresh _ Prod.fst (name, v) done fresh
  rw [deliver, put] at here
  exact Reader.Takes.cons rfl (Reader.Takes.cons rfl here)

theorem takes_members {room : Nat} {m : String × Json} {rest : List (String × Json)}
    (each : ∀ w ∈ m :: rest, Delivered room w.2) {stack : List Frame}
    (fits : stack.length + (room + 1) ≤ maxDepth) {done : List (String × Json)}
    (names : ((done ++ m :: rest).map Prod.fst).Nodup) :
    (⟨.name, .object done :: stack⟩ : Reader).Takes (memberTokens (m :: rest) ++ [.closeObject])
      (deliver (.object (done ++ m :: rest)) stack) := by
  induction rest generalizing m done with
  | nil =>
    obtain ⟨name, v⟩ := m
    have fresh := fresh_of_names names
    have here := takes_member (each _ List.mem_cons_self) fits fresh
    rw [memberTokens]
    exact here.append (Reader.takes_one rfl)
  | cons next rest ih =>
    obtain ⟨name, v⟩ := m
    have fresh := fresh_of_names names
    have here := takes_member (each _ List.mem_cons_self) fits fresh
    rw [List.append_cons] at names
    have later := ih (fun w mem => each w (List.mem_cons_of_mem _ mem)) names
    rw [memberTokens]
    have comma : (⟨.separator, .object (done ++ [(name, v)]) :: stack⟩ : Reader).accept .comma =
        some ⟨.name, .object (done ++ [(name, v)]) :: stack⟩ := rfl
    have both := here.append (Reader.Takes.cons comma later)
    simpa using both

/-- The tokens of an array deliver it, if those of its items do. -/
theorem Delivered.array {room : Nat} {items : List Json}
    (each : ∀ v ∈ items, Delivered room v) : Delivered (room + 1) (.array items) := by
  intro stack fits
  have opened : (⟨.value, stack⟩ : Reader).accept .openArray =
      some ⟨.valueOrClose, .array [] :: stack⟩ := by
    have space : stack.length < maxDepth := by omega
    simp [Reader.accept, acceptValue, openFrame, space]
  rw [tokens]
  refine Reader.Takes.cons opened ?_
  cases items with
  | nil => exact Reader.takes_one rfl
  | cons v rest =>
    intro more
    rw [run_valueOrClose]
    exact takes_items each fits [] more

theorem Delivered.number {room : Nat} (n : Number) : Delivered room (.number n) :=
  fun _ _ => Reader.takes_one rfl

/-- The tokens of a document that is read as it is written deliver it. -/
theorem delivered {room : Nat} {v : Json} (legible : v.Legible room) : Delivered room v := by
  induction legible with
  | null => exact fun stack _ => Reader.takes_one rfl
  | bool b => exact fun stack _ => Reader.takes_one rfl
  | number read => exact .number _
  | text s => exact fun stack _ => Reader.takes_one rfl
  | array inside ih => exact .array ih
  | @object room members names inside ih =>
    intro stack fits
    have opened : (⟨.value, stack⟩ : Reader).accept .openObject =
        some ⟨.nameOrClose, .object [] :: stack⟩ := by
      have space : stack.length < maxDepth := by omega
      simp [Reader.accept, acceptValue, openFrame, space]
    rw [tokens]
    refine Reader.Takes.cons opened ?_
    cases members with
    | nil => exact Reader.takes_one rfl
    | cons m rest =>
      intro more
      rw [run_nameOrClose]
      exact @takes_members _ _ _ ih stack fits [] names more

/-- A document is read from any text that has its tokens. -/
theorem parse?_of_scansTo {s : String} {v : Json} (scans : ScansTo s.toList v.tokens)
    (delivers : Delivered maxDepth v) : parse? s = some v := by
  have read := delivers [] (by simp) []
  rw [List.append_nil] at read
  rw [parse?, scan_of_scansTo scans]
  exact read

/-- A document that is read as it is written comes back from its text. -/
theorem parse?_write {v : Json} (legible : v.Legible maxDepth) : parse? v.write = some v :=
  parse?_of_scansTo (scansTo_write legible) (delivered legible)

end EntityGraph.Json
