/-
CellNft.Hex — bytes and whole numbers as hex text.

* `Hex.encode` writes `0x` and two lower case digits for each byte.
* `Hex.decode` reads pairs of digits of either case. A leading `0x` may be missing, and blanks may
  stand before, between and after the pairs. A failure names the place, counted behind the `0x`, of
  the first character that is no digit where one is needed.
* `Hex.readInt` and `Hex.writeInt` do the same for whole numbers of any size.
-/
import CellNft.Bytes
import CellNft.Value.Access
import CellNft.Value.Numeral

namespace CellNft

namespace Hex

/-- The text with `0x` in front. -/
def withMark (t : Text) : Text :=
  match t.points with
  | .char '0' :: .char 'x' :: _ => t
  | _ => "0x" ++ t

/-- The text without a leading `0x`. -/
def dropMark (t : Text) : Text :=
  match t.points with
  | .char '0' :: .char 'x' :: rest => ⟨rest⟩
  | _ => t

/-- The two digits of a byte. -/
def bytePair (b : UInt8) : List Char :=
  [Nat.digitChar (b.toNat / 16), Nat.digitChar (b.toNat % 16)]

/-- The digits of the bytes. -/
def digits (bytes : Bytes) : List Char := bytes.flatMap bytePair

def encode (bytes : Bytes) : String := String.ofList ('0' :: 'x' :: digits bytes)

/-- Reads pairs from a place on; the error is the place of the first misfit. -/
def pairsFrom (place : Nat) : List Char → Except Nat Bytes
  | [] => .ok []
  | [c] =>
    if Text.isAsciiBlank c then .ok []
    else if (Integer.hexDigit? c).isNone then .error place
    else .error (place + 1)
  | c :: d :: rest =>
    if Text.isAsciiBlank c then pairsFrom (place + 1) (d :: rest)
    else
      match Integer.hexDigit? c, Integer.hexDigit? d with
      | none, _ => .error place
      | some _, none => .error (place + 1)
      | some high, some low =>
        (pairsFrom (place + 2) rest).map (UInt8.ofNat (16 * high + low) :: ·)

/-- Reads pairs of digits. A character outside ASCII is reported before any other misfit. -/
def readPairs (s : List Char) : Except Nat Bytes :=
  match s.findIdx? fun c => 0x80 ≤ c.toNat with
  | some place => .error place
  | none => pairsFrom 0 s

def decode (t : Text) : Except Fault Bytes :=
  match readPairs (dropMark t).chars with
  | .ok bytes => .ok bytes
  | .error place => .error (.notHex place)

/-- The bytes of a value that must be hex text. -/
def decodeValue (v : Value) : Except Fault Bytes := do decode (← v.text)

/-- The bytes a list of numbers stands for. -/
def bytesOf : List Value → Except Fault Bytes
  | [] => .ok []
  | v :: rest => do
    match v.index? with
    | none => .error .wrongType
    | some n =>
      if 0 ≤ n ∧ n < 256 then return UInt8.ofNat n.toNat :: (← bytesOf rest)
      else .error .byteRange

/-- The bytes a value stands for: a number is that many zeros, and every other value but a text the
numbers it runs through. -/
def bytesOfValue (v : Value) : Except Fault Bytes :=
  match v, v.index? with
  | _, some n =>
    if n < 0 then .error .negativeCount
    else if 0x100000000 ≤ n then .error .countTooLarge
    else .ok (List.replicate n.toNat 0)
  | .str _, none => .error .wrongType
  | v, none => do bytesOf (← v.elements)

/-- The hex text of a value that must be a whole number. -/
def writeInt (v : Value) : Except Fault String :=
  match v.index? with
  | some n => .ok (String.ofList (Integer.hexText n))
  | none => .error .wrongType

/-- The whole number that a hex text stands for. -/
def readIntText (t : Text) : Except Fault Int := Numeral.integer 16 t

/-- The whole number of a value that must be hex text; bytes are read like one. -/
def readInt : Value → Except Fault Int
  | .str t => readIntText t
  | .bytes b => Numeral.integerOfBytes 16 b
  | _ => .error .wrongType

/-- Whether a text is `0x` and 64 digits; one line feed at the end is let through. -/
def isHash32Text (t : Text) : Bool :=
  match t.chars with
  | '0' :: 'x' :: rest =>
    let digits := rest.take 64
    let behind := rest.drop 64
    digits.length = 64 && digits.all (Integer.hexDigit? · |>.isSome)
      && (behind = [] || behind = ['\n'])
  | _ => false

/-- `0x` and eight digits, for a number below `2 ^ 32`. -/
def u32Text (n : Nat) : List Char := '0' :: 'x' :: Text.hexPadded 8 n

/-- What is wrong with a number that does not fit. A whole number that is too long cannot be
named. -/
def unfitting : Scalar → Fault
  | .int n => if Integer.exceeds n then .unwritable else .u32Range (.int n)
  | s => .u32Range s

/-- The text of eight digits of a number that must fit. -/
def writeU32 (v : Value) : Except Fault String :=
  match v with
  | .scalar s =>
    match s.number? with
    | none => .error .wrongType
    | some x =>
      if x.lt (.int 0) || !x.lt (.int 0x100000000) then .error (unfitting s)
      else
        match x with
        | .int n => .ok (String.ofList (u32Text n.toNat))
        | .float _ => .error .notWhole
  | _ => .error .wrongType

end Hex
end CellNft
