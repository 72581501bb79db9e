/-
CellNft.Yaml.Literal — the scalars that texts stand for under a type.

A document can put a type in front of any text, so each reader takes every text:

* underscores in numbers do not count, and one sign may stand before everything else;
* whole numbers are decimal, binary behind `0b`, hexadecimal behind `0x`, octal behind another zero,
  or in base sixty if they hold a colon; each part is read as `Numeral.integer` does;
* doubles are decimal or in base sixty, or one of the two words with a point in front.

Main definition: `Literal.read`.
-/
import CellNft.Base64
import CellNft.Text.Case
import CellNft.Value.Numeral
import CellNft.Yaml.Tag

namespace CellNft.Yaml.Literal

/-- Whether a minus sign leads, and the text behind a sign. Nothing has no sign to look at. -/
def splitSign (t : Text) : Except Fault (Bool × Text) :=
  match t.points with
  | [] => .error .outOfRange
  | .char '-' :: rest => .ok (true, ⟨rest⟩)
  | .char '+' :: rest => .ok (false, ⟨rest⟩)
  | _ => .ok (false, t)

/-- The text of a number without its underscores. -/
def dropGaps (t : Text) : Text := ⟨t.points.filter (· ≠ .char '_')⟩

/-- The places of a number in base sixty; one that is not written so has one place. -/
def places (t : Text) : List Text := t.cut ':'

/-- The whole number that places of base sixty stand for. -/
def ofPlaces (ps : List Int) : Int := ps.foldl (fun n p => n * 60 + p) 0

/-- The whole number of a text without its first sign. -/
def readMagnitude (t : Text) : Except Fault Int :=
  match t.points with
  | [] => .error .outOfRange
  | [.char '0'] => .ok 0
  | .char '0' :: .char 'b' :: digits => Numeral.integer 2 ⟨digits⟩
  | .char '0' :: .char 'x' :: digits => Numeral.integer 16 ⟨digits⟩
  | .char '0' :: _ => Numeral.integer 8 t
  | _ => do return ofPlaces (← (places t).mapM (Numeral.integer 10))

def readInt (t : Text) : Except Fault Int := do
  let (negative, magnitude) ← splitSign (dropGaps t)
  let n ← readMagnitude magnitude
  return if negative then -n else n

/-- The sum of places of base sixty, the last one first, with their weights. -/
def sumPlaces (sum : Binary64) (weight : Int) : List Binary64 → Except Fault Binary64
  | [] => .ok sum
  | p :: rest =>
    match (Number.int weight).toBinary64? with
    | some w => sumPlaces (sum.add (p.mul w)) (weight * 60) rest
    | none => .error .beyondDouble

/-- The double of a text in lower case without its first sign. -/
def readUnsignedFloat (t : Text) : Except Fault Binary64 := do
  if t = Text.ofString ".inf" then return Binary64.infinity false
  else if t = Text.ofString ".nan" then return Binary64.indefinite
  else
    match places t with
    | [t] => Numeral.double t
    | ps => sumPlaces (Binary64.zero false) 1 (← ps.mapM Numeral.double).reverse

def readFloat (t : Text) : Except Fault Binary64 := do
  let (negative, magnitude) ← splitSign (dropGaps t).lower
  let x ← readUnsignedFloat magnitude
  return if negative then (Binary64.ofRat (-1) false).mul x else x

def readBool (t : Text) : Except Fault Bool :=
  match Tag.boolWords.find? fun w => Text.ofString w.1 = t.lower with
  | some w => .ok w.2
  | none => .error (.missingKey (.str t.lower))

/-- The bytes of a text in which every character is ASCII. -/
def readBinary (t : Text) : Except Fault Bytes :=
  match if t.chars.all (·.toNat < 0x80) then Base64.decode? t.chars else none with
  | some b => .ok b
  | none => .error .malformedYaml

def readTimestamp (t : Text) : Except Fault Scalar :=
  match Timestamp.read? (Tag.dropFinalBreak t.chars) with
  | none => .error .noSuchMethod
  | some t =>
    match t.toScalar with
    | .ok v => .ok v
    | .error m => .error (.misfit m)

/-- The scalar a text stands for. -/
def read (tag : Tag) (t : Text) : Except Fault Scalar :=
  match tag with
  | .null => .ok .null
  | .bool => .bool <$> readBool t
  | .int => .int <$> readInt t
  | .float => .float <$> readFloat t
  | .str => .ok (.str t)
  | .binary => .bytes <$> readBinary t
  | .timestamp => readTimestamp t
  | _ => .error .malformedYaml

end CellNft.Yaml.Literal
