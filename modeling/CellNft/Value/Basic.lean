/-
CellNft.Value.Basic — the data that configuration files, replies of nodes and transactions in
motion are made of.

* `Scalar` are the values without parts; they are also what the keys of a dictionary can be.
* `Value` adds lists, pairs, sets and dictionaries. A dictionary is its entries in order, and so are
  the members of a set.
* `Dict.find?` and `Dict.set` read and write one entry. Writing under a key that is there keeps the
  key and its place and replaces the value; a new key goes to the end.
-/
import CellNft.Bytes
import CellNft.Calendar.Moment
import CellNft.Number.Basic
import CellNft.Text.Basic

namespace CellNft

inductive Scalar where
  | null
  | bool (b : Bool)
  | int (n : Int)
  | float (x : Binary64)
  | str (t : Text)
  | bytes (b : Bytes)
  | date (d : Calendar.Date)
  | moment (t : Calendar.Moment)
deriving DecidableEq, Inhabited

inductive Value where
  | scalar (s : Scalar)
  | list (items : List Value)
  -- an entry of an ordered mapping
  | pair (first second : Value)
  | set (members : List Scalar)
  | dict (entries : List (Scalar × Value))
deriving Inhabited

namespace Value

@[match_pattern] abbrev null : Value := .scalar .null
@[match_pattern] abbrev bool (b : Bool) : Value := .scalar (.bool b)
@[match_pattern] abbrev int (n : Int) : Value := .scalar (.int n)
@[match_pattern] abbrev float (x : Binary64) : Value := .scalar (.float x)
@[match_pattern] abbrev str (t : Text) : Value := .scalar (.str t)
@[match_pattern] abbrev bytes (b : Bytes) : Value := .scalar (.bytes b)

end Value

namespace Scalar

/-- The number a scalar counts as; a boolean counts as one or zero. -/
def number? : Scalar → Option Number
  | .bool b => some (.int (if b then 1 else 0))
  | .int n => some (.int n)
  | .float x => some (.float x)
  | .null | .str _ | .bytes _ | .date _ | .moment _ => none

/-- Whether two scalars are one key. Numbers are compared by value, moments by the instant, and all
else must be identical. The indefinite double has no value to compare, but is one key. -/
def same (a b : Scalar) : Bool :=
  match a, b with
  | .moment s, .moment t => s.same t
  | a, b =>
    match a.number?, b.number? with
    | some x, some y => x.eq y || (x = .float Binary64.indefinite && y = x)
    | none, none => a = b
    | _, _ => false

/-- Null, false, zero, the empty text and no bytes do not hold. -/
def holds : Scalar → Bool
  | .null => false
  | .bool b => b
  | .int n => n ≠ 0
  | .float x => !x.isZero
  | .str t => !t.isEmpty
  | .bytes b => !b.isEmpty
  | .date _ | .moment _ => true

/-- Adds a scalar behind the others, unless it is one of them. -/
def insertInto (members : List Scalar) (s : Scalar) : List Scalar :=
  if members.any (·.same s) then members else members ++ [s]

/-- The members of the set of the given scalars. -/
def distinct (scalars : List Scalar) : List Scalar := scalars.foldl insertInto []

end Scalar

/-- The entries of a dictionary, in order. -/
abbrev Dict := List (Scalar × Value)

namespace Dict

def find? (d : Dict) (key : Scalar) : Option Value :=
  (List.find? (fun e => e.1.same key) d).map (·.2)

def contains (d : Dict) (key : Scalar) : Bool := (d.find? key).isSome

def set (d : Dict) (key : Scalar) (value : Value) : Dict :=
  match d with
  | [] => [(key, value)]
  | e :: rest => if e.1.same key then (e.1, value) :: rest else e :: set rest key value

/-- The dictionary of pairs: of a repeated key the first place and the last value count. -/
def ofPairs (pairs : List (Scalar × Value)) : Dict :=
  pairs.foldl (fun d e => d.set e.1 e.2) []

/-- A dictionary whose keys are the given texts. -/
def ofFields (fields : List (String × Value)) : Dict :=
  fields.map fun f => (.str f.1, f.2)

end Dict

namespace Value

/-- A dictionary with the given fields. -/
def record (fields : List (String × Value)) : Value := .dict (Dict.ofFields fields)

/-- Null, false, zero and everything empty do not hold. -/
def holds : Value → Bool
  | .scalar s => s.holds
  | .list items => !items.isEmpty
  | .pair .. => true
  | .set members => !members.isEmpty
  | .dict entries => !entries.isEmpty

/-- The value, or the other one if it does not hold. -/
def orElse (v other : Value) : Value := if v.holds then v else other

mutual

/-- Whether two values are equal: lists and pairs item by item, sets and dictionaries regardless of
order. -/
def same : Value → Value → Bool
  | .scalar a, .scalar b => a.same b
  | .list xs, .list ys => sameItems xs ys
  | .pair a b, .pair c d => same a c && same b d
  | .set xs, .set ys => xs.length = ys.length && xs.all fun x => ys.any (·.same x)
  | .dict d, .dict e => d.length = e.length && sameEntries d e
  | _, _ => false

def sameItems : List Value → List Value → Bool
  | [], [] => true
  | x :: xs, y :: ys => same x y && sameItems xs ys
  | _, _ => false

def sameEntries : List (Scalar × Value) → Dict → Bool
  | [], _ => true
  | (k, v) :: rest, e =>
    (match e.find? k with
      | some w => same v w
      | none => false) && sameEntries rest e

end

end Value
end CellNft
