import EntityGraph.Number.Decimal
import EntityGraph.Text.Utf8

/-!
# Base 64

Three bytes are four symbols of six bits, and a shorter rest is filled up with `=`. Reading
accepts what writing produces and nothing else: no missing or surplus padding and no bits
beyond the last byte. All quads but the last must be symbols throughout, and the first fault
from the left is reported, except that a fault in a single symbol left over at the end comes
before all others.
-/
namespace EntityGraph.Text.Base64

inductive Fault where
  | symbol (byte : UInt8) (offset : Nat)
  | length (length : Nat)
  | lastSymbol (byte : UInt8) (offset : Nat)
  | padding
  deriving DecidableEq

def Fault.message : Fault → String
  | .symbol b i =>
    "Invalid symbol " ++ Decimal.ofNat b.toNat ++ ", offset " ++ Decimal.ofNat i ++ "."
  | .length n => "Invalid input length: " ++ Decimal.ofNat n
  | .lastSymbol b i =>
    "Invalid last symbol " ++ Decimal.ofNat b.toNat ++ ", offset " ++ Decimal.ofNat i ++ "."
  | .padding => "Invalid padding"

def pad : UInt8 := 61

/-- The symbol for a number below 64. -/
def symbol (n : Nat) : UInt8 :=
  UInt8.ofNat
    (if n < 26 then 65 + n
    else if n < 52 then 97 + (n - 26)
    else if n < 62 then 48 + (n - 52)
    else if n = 62 then 43
    else 47)

/-- The number that a symbol stands for. -/
def number? (b : UInt8) : Option Nat :=
  let n := b.toNat
  if 65 ≤ n ∧ n ≤ 90 then some (n - 65)
  else if 97 ≤ n ∧ n ≤ 122 then some (n - 97 + 26)
  else if 48 ≤ n ∧ n ≤ 57 then some (n - 48 + 52)
  else if n = 43 then some 62
  else if n = 47 then some 63
  else none

/-! ## Writing -/

def encodeBytes : List UInt8 → List UInt8
  | a :: b :: c :: rest =>
    let n := a.toNat * 65536 + b.toNat * 256 + c.toNat
    symbol (n / 262144) :: symbol (n / 4096 % 64) :: symbol (n / 64 % 64) ::
      symbol (n % 64) :: encodeBytes rest
  | [a, b] =>
    let n := (a.toNat * 256 + b.toNat) * 4
    [symbol (n / 4096), symbol (n / 64 % 64), symbol (n % 64), pad]
  | [a] =>
    let n := a.toNat * 16
    [symbol (n / 64), symbol (n % 64), pad, pad]
  | [] => []

def encode (bs : List UInt8) : String :=
  String.ofList ((encodeBytes bs).map fun b => Char.ofNat b.toNat)

/-! ## Reading -/

/-- The numbers of a run of symbols, which starts at `offset`. -/
def numbers (offset : Nat) : List UInt8 → Except Fault (List Nat)
  | [] => .ok []
  | b :: bs =>
    match number? b with
    | none => .error (.symbol b offset)
    | some n =>
      match numbers (offset + 1) bs with
      | .ok ns => .ok (n :: ns)
      | .error f => .error f

/-- The bytes of a whole or a shortened quad, and whether bits are left over. -/
def joinBits : List Nat → List UInt8 × Bool
  | [a, b, c, d] =>
    let n := ((a * 64 + b) * 64 + c) * 64 + d
    ([UInt8.ofNat (n / 65536), UInt8.ofNat (n / 256 % 256), UInt8.ofNat (n % 256)], false)
  | [a, b, c] =>
    let n := (a * 64 + b) * 64 + c
    ([UInt8.ofNat (n / 1024), UInt8.ofNat (n / 4 % 256)], n % 4 != 0)
  | [a, b] =>
    let n := a * 64 + b
    ([UInt8.ofNat (n / 16)], n % 16 != 0)
  | _ => ([], false)

/-- The last quad, which starts at `offset` and may be short or padded. -/
def lastQuad (offset : Nat) (bs : List UInt8) : Except Fault (List UInt8) :=
  let symbols := bs.takeWhile (· != pad)
  let pads := bs.dropWhile (· != pad)
  match numbers offset symbols with
  | .error f => .error f
  | .ok ns =>
    if !pads.isEmpty && (symbols.length < 2 || !pads.all (· == pad)) then
      .error (.symbol pad (offset + symbols.length))
    else if !bs.isEmpty && symbols.length < 2 then
      .error (.length (offset + symbols.length))
    else if bs.length % 4 ≠ 0 then .error .padding
    else
      let (bytes, surplus) := joinBits ns
      if surplus then
        .error (.lastSymbol (symbols.getLastD 0) (offset + symbols.length - 1))
      else .ok bytes

/-- The quads from `offset` on; the last one is the one with nothing after it. -/
def quads (offset : Nat) : List UInt8 → Except Fault (List UInt8)
  | a :: b :: c :: d :: e :: rest =>
    match numbers offset [a, b, c, d] with
    | .error f => .error f
    | .ok ns =>
      match quads (offset + 4) (e :: rest) with
      | .error f => .error f
      | .ok bytes => .ok ((joinBits ns).1 ++ bytes)
  | bs => lastQuad offset bs

/-- A byte left over behind the last quad that is neither a symbol nor padding. -/
def strayByte (bs : List UInt8) : Option UInt8 :=
  if bs.length % 4 = 1 then
    bs.getLast?.filter fun b => b != pad && (number? b).isNone
  else none

def decode (s : String) : Except Fault (List UInt8) :=
  let bs := toBytes s
  match strayByte bs with
  | some b => .error (.symbol b (bs.length - 1))
  | none => quads 0 bs

end EntityGraph.Text.Base64
