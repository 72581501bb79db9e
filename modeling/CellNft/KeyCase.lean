/-
CellNft.KeyCase — the two spellings of the keys of a record.

Nodes spell keys in snake case (`tx_hash`), this library in camel case (`txHash`).

* `KeyCase.camel` joins the words of a snake case key; every word but the first gets title case.
* `KeyCase.snake` puts an underscore before each capital ASCII letter that is not the first
  character, and lowers the case.
* `Value.camelKeys` and `Value.snakeKeys` convert the keys at every depth of dictionaries and lists
  and leave all else as it is, pairs with their parts, too.
-/
import CellNft.Text.Case
import CellNft.Text.Pieces
import CellNft.Value.Access

namespace CellNft

namespace KeyCase

/-- Title case of every word but the first, joined. -/
def join : List Text → Text
  | [] => ""
  | head :: tail => head ++ Text.join (tail.map Text.title)

/-- A snake case key in camel case. -/
def camel (t : Text) : Text := join (t.cut '_')

/-- Whether a code point is a capital ASCII letter. -/
def isCapital (p : CodePoint) : Bool := 'A'.toNat ≤ p.toNat && p.toNat ≤ 'Z'.toNat

/-- An underscore before each capital letter. -/
def mark : List CodePoint → List CodePoint
  | [] => []
  | p :: rest => if isCapital p then .char '_' :: p :: mark rest else p :: mark rest

/-- A camel case key in snake case. -/
def snake (t : Text) : Text :=
  match t.points with
  | [] => t
  | p :: rest => Text.lower ⟨p :: mark rest⟩

/-- The camel case of a key; only texts have one. Bytes can be cut, but not at a character. -/
def camelKey : Scalar → Except Fault Scalar
  | .str t => .ok (.str (camel t))
  | .bytes _ => .error .wrongType
  | _ => .error .noSuchMethod

/-- The snake case of a key; only texts have one. -/
def snakeKey : Scalar → Except Fault Scalar
  | .str t => .ok (.str (snake t))
  | _ => .error .wrongType

end KeyCase

namespace Value

mutual

/-- Renames the keys at every depth. When two keys of a dictionary become one, the first keeps its
place and the last its value. -/
def mapKeys (f : Scalar → Except Fault Scalar) : Value → Except Fault Value
  | .scalar s => .ok (.scalar s)
  | .list items => do return .list (← mapKeysItems f items)
  | .pair a b => .ok (.pair a b)
  | .set members => .ok (.set members)
  | .dict entries => do return .dict (Dict.ofPairs (← mapKeysEntries f entries))

def mapKeysItems (f : Scalar → Except Fault Scalar) : List Value → Except Fault (List Value)
  | [] => .ok []
  | v :: rest => do
    let w ← mapKeys f v
    return w :: (← mapKeysItems f rest)

def mapKeysEntries (f : Scalar → Except Fault Scalar) :
    List (Scalar × Value) → Except Fault (List (Scalar × Value))
  | [] => .ok []
  | (k, v) :: rest => do
    let l ← f k
    let w ← mapKeys f v
    return (l, w) :: (← mapKeysEntries f rest)

end

/-- The value with keys in camel case. -/
def camelKeys (v : Value) : Except Fault Value := v.mapKeys KeyCase.camelKey

/-- The value with keys in snake case. -/
def snakeKeys (v : Value) : Except Fault Value := v.mapKeys KeyCase.snakeKey

end Value
end CellNft
