/-!
# Bytes and text

Text turns into bytes and back without loss. Bytes that are no text can still be shown: a
machine reads one byte at a time and knows which bytes may follow, and wherever it is stuck a
replacement character stands for the bytes it has taken since the last character.
-/
namespace EntityGraph.Text

def toBytes (s : String) : List UInt8 :=
  s.toUTF8.data.toList

/-- The text that the bytes encode, if they encode one. -/
def ofBytes? (bs : List UInt8) : Option String :=
  String.fromUTF8? ⟨bs.toArray⟩

/-- Inside a character: how many bytes are still to come, the bounds of the next one, and the
bits so far. -/
structure Pending where
  left : Nat
  low : Nat
  high : Nat
  code : Nat

/-- The first byte of a character: the character itself, or what is to follow. -/
def leadByte (b : Nat) : Option (Char ⊕ Pending) :=
  if b < 0x80 then some (.inl (Char.ofNat b))
  else if 0xc2 ≤ b ∧ b ≤ 0xdf then some (.inr ⟨1, 0x80, 0xbf, b - 0xc0⟩)
  else if b = 0xe0 then some (.inr ⟨2, 0xa0, 0xbf, 0⟩)
  else if b = 0xed then some (.inr ⟨2, 0x80, 0x9f, 13⟩)
  else if 0xe1 ≤ b ∧ b ≤ 0xef then some (.inr ⟨2, 0x80, 0xbf, b - 0xe0⟩)
  else if b = 0xf0 then some (.inr ⟨3, 0x90, 0xbf, 0⟩)
  else if 0xf1 ≤ b ∧ b ≤ 0xf3 then some (.inr ⟨3, 0x80, 0xbf, b - 0xf0⟩)
  else if b = 0xf4 then some (.inr ⟨3, 0x80, 0x8f, 4⟩)
  else none

def replacement : Char :=
  Char.ofNat 0xfffd

/-- One byte between characters. -/
def startChar (b : Nat) : List Char × Option Pending :=
  match leadByte b with
  | some (.inl c) => ([c], none)
  | some (.inr p) => ([], some p)
  | none => ([replacement], none)

/-- One byte: the characters it completes, and where it leaves the machine. A byte that cannot
go on starts over after a replacement. -/
def readByte (state : Option Pending) (b : Nat) : List Char × Option Pending :=
  match state with
  | none => startChar b
  | some p =>
    if p.low ≤ b ∧ b ≤ p.high then
      let code := p.code * 64 + (b - 0x80)
      if p.left ≤ 1 then ([Char.ofNat code], none)
      else ([], some ⟨p.left - 1, 0x80, 0xbf, code⟩)
    else
      let (cs, next) := startChar b
      (replacement :: cs, next)

def showFrom (state : Option Pending) : List UInt8 → List Char
  | [] => if state.isSome then [replacement] else []
  | b :: bs =>
    let (cs, next) := readByte state b.toNat
    cs ++ showFrom next bs

/-- The bytes as text, with replacement characters where they are no text. -/
def showBytes (bs : List UInt8) : String :=
  String.ofList (showFrom none bs)

end EntityGraph.Text
