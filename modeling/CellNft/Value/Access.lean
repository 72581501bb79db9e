/-
CellNft.Value.Access — taking values apart, with the failure each way of access has.

Three families of failures come up. An operation that the shape of the value does not offer at all
is `Fault.noSuchMethod` if it is one of its methods (`field?`, `entries`, `text`) and
`Fault.wrongType` if it is an operator (`item`, `member`, `elements`, `length`); a key or a place
that is not there is `Fault.missingKey` or `Fault.outOfRange`. Bytes have the methods of a text, but
they take no text with them, which is `Fault.wrongType` again.
-/
import CellNft.Fault

namespace CellNft.Value

/-- The value under a key that must be there. -/
def item (v : Value) (key : String) : Except Fault Value :=
  match v with
  | .dict d =>
    match Dict.find? d (.str key) with
    | some w => .ok w
    | none => .error (.missingKey (.str key))
  | _ => .error .wrongType

/-- The value under a key, or null. -/
def field (v : Value) (key : String) : Except Fault Value :=
  match v with
  | .dict d => .ok ((Dict.find? d (.str key)).getD .null)
  | _ => .error .noSuchMethod

/-- The value under a key, or the given one. -/
def fieldOr (v : Value) (key : String) (default : Value) : Except Fault Value :=
  match v with
  | .dict d => .ok ((Dict.find? d (.str key)).getD default)
  | _ => .error .noSuchMethod

/-- Whether `needle` stands in one piece inside a list. -/
def occursIn {α : Type} [BEq α] (needle : List α) : List α → Bool
  | [] => needle.isEmpty
  | x :: rest => needle.isPrefixOf (x :: rest) || occursIn needle rest

/-- The place an index from either end of a sequence means. -/
def place? (length : Nat) (i : Int) : Option Nat :=
  if 0 ≤ i then (if i.toNat < length then some i.toNat else none)
  else if (-i).toNat ≤ length then some (length - (-i).toNat) else none

/-- A scalar that can serve as an index. -/
def index? : Value → Option Int
  | .int i => some i
  | .bool b => some (if b then 1 else 0)
  | _ => none

/-- Whether a value is among the keys of a dictionary, the members of a set, the items of a list or
a pair, among bytes, or inside a text. -/
def member (v needle : Value) : Except Fault Bool :=
  match v, needle with
  | .dict d, .scalar s => .ok (Dict.contains d s)
  | .set members, .scalar s => .ok (members.any (·.same s))
  | .dict _, _ | .set _, _ => .error .wrongType
  | .list items, _ => .ok (items.any (·.same needle))
  | .pair a b, _ => .ok (a.same needle || b.same needle)
  | .str text, .str part => .ok (occursIn part.points text.points)
  | .bytes b, .bytes part => .ok (occursIn part b)
  | .bytes b, needle =>
    match needle.index? with
    | none => .error .wrongType
    | some n =>
      if 0 ≤ n ∧ n < 256 then .ok (b.contains (UInt8.ofNat n.toNat)) else .error .noByte
  | _, _ => .error .wrongType

/-- A byte as a number. -/
def ofByte (b : UInt8) : Value := .int b.toNat

/-- What a sequence consists of: items, characters or bytes. -/
def sequence? : Value → Option (List Value)
  | .list items => some items
  | .pair a b => some [a, b]
  | .str text => some (text.points.map fun p => .str ⟨[p]⟩)
  | .bytes b => some (b.map ofByte)
  | _ => none

/-- The value under a key of a dictionary, or at an index of a sequence. -/
def select (v key : Value) : Except Fault Value :=
  match v, key with
  | .dict d, .scalar s =>
    match Dict.find? d s with
    | some w => .ok w
    | none => .error (.missingKey s)
  | v, key =>
    match v.sequence?, key.index? with
    | some parts, some i =>
      match (place? parts.length i).bind (parts[·]?) with
      | some w => .ok w
      | none => .error .outOfRange
    | _, _ => .error .wrongType

/-- The first item. -/
def first (v : Value) : Except Fault Value := v.select (.int 0)

/-- What a loop over the value runs through: keys, members, or the parts of a sequence. -/
def elements (v : Value) : Except Fault (List Value) :=
  match v with
  | .dict d => .ok (d.map fun e => .scalar e.1)
  | .set members => .ok (members.map .scalar)
  | v =>
    match v.sequence? with
    | some parts => .ok parts
    | none => .error .wrongType

/-- Everything after the first item of a list or a text. -/
def rest : Value → Except Fault (List Value)
  | .list items => .ok (items.drop 1)
  | .str text => .ok ((text.points.drop 1).map fun p => .str ⟨[p]⟩)
  | _ => .error .wrongType

/-- The entries of a dictionary. -/
def entries : Value → Except Fault Dict
  | .dict d => .ok d
  | _ => .error .noSuchMethod

/-- How many keys, members or parts there are. -/
def length (v : Value) : Except Fault Nat := v.elements.map List.length

/-- The text of a value that must be one. -/
def text : Value → Except Fault Text
  | .str t => .ok t
  | .bytes _ => .error .wrongType
  | _ => .error .noSuchMethod

/-- One entry of a dictionary that is given as pairs. -/
def entryAt (index : Nat) (v : Value) : Except Fault (Scalar × Value) := do
  match ← v.elements with
  | [.scalar key, value] => .ok (key, value)
  | [_, _] => .error .wrongType
  | parts => .error (.pairLength index parts.length)

def entriesFrom : Nat → List Value → Except Fault (List (Scalar × Value))
  | _, [] => .ok []
  | index, v :: rest => do
    let e ← entryAt index v
    return e :: (← entriesFrom (index + 1) rest)

/-- The value as a dictionary: a dictionary itself, or the dictionary of a sequence of pairs. -/
def toDict (v : Value) : Except Fault Dict := do
  match v with
  | .dict d => .ok d
  | _ => return Dict.ofPairs (← entriesFrom 0 (← v.elements))

end CellNft.Value
