/-
CellNft.Json.Writer — values as JSON text.

* `Json.write` is the text of a value. It is printable ASCII: every other character is escaped by
  its UTF-16 units. `Json.Layout` says where lines break; `Layout.compact` keeps everything on one
  line and `Layout.indented` puts every item on a line of its own.
* `Json.refusal?` is why a value has no such text: JSON has no form for bytes, dates, moments and
  sets, and a whole number may be too long to be written.
* A `Json.Document` is a value that has a text.
-/
import CellNft.Fault

namespace CellNft.Json

/-- `\u` and four digits. -/
def unitEscape (n : Nat) : List Char := '\\' :: 'u' :: Text.hexPadded 4 n

/-- The UTF-16 units of a character, escaped. -/
def wideEscape (c : Char) : List Char :=
  let n := c.toNat
  if n < 0x10000 then unitEscape n
  else unitEscape (0xd800 + (n - 0x10000) / 0x400) ++ unitEscape (0xdc00 + (n - 0x10000) % 0x400)

/-- A character inside a JSON string. -/
def escapeChar (c : Char) : List Char :=
  if c = '"' || c = '\\' then ['\\', c]
  else if c = '\n' then ['\\', 'n']
  else if c = '\r' then ['\\', 'r']
  else if c = '\t' then ['\\', 't']
  else if c = '\x0c' then ['\\', 'f']
  else if c = '\x08' then ['\\', 'b']
  else if 0x20 ≤ c.toNat && c.toNat < 0x7f then [c]
  else wideEscape c

/-- A code point inside a JSON string; half of a surrogate pair is a unit of its own. -/
def escapePoint : CodePoint → List Char
  | .char c => escapeChar c
  | p => unitEscape p.toNat

/-- A JSON string. -/
def writeString (t : Text) : List Char := '"' :: t.points.flatMap escapePoint ++ ['"']

/-- A double; the words for the numbers without a decimal form are capitalised. -/
def writeFloat (x : Binary64) : List Char :=
  match x.view with
  | .nan => "NaN".toList
  | .infinite negative => (if negative then "-Infinity" else "Infinity").toList
  | .finite .. => x.text.toList

/-- A scalar; a string stands for what JSON has no form for. -/
def writeScalar : Scalar → List Char
  | .null => "null".toList
  | .bool b => (if b then "true" else "false").toList
  | .int n => (toString n).toList
  | .float x => writeFloat x
  | s => writeString s.display

/-- A key; numbers, booleans and null are written as text. -/
def writeKey (key : Scalar) : List Char :=
  match key with
  | .null | .bool _ | .int _ | .float _ => writeString (.ofChars (writeScalar key))
  | _ => writeScalar key

/-- Where lines break. -/
structure Layout where
  /-- What separates two items, up to the line break. -/
  comma : List Char
  /-- The line break in front of something at a depth. -/
  lineBreak : Nat → List Char

/-- Everything on one line. -/
def Layout.compact : Layout := ⟨[',', ' '], fun _ => []⟩

/-- Two blanks for each level. -/
def Layout.indented : Layout := ⟨[','], fun depth => '\n' :: List.replicate (2 * depth) ' '⟩

mutual

/-- The text of a value at a depth. Pairs and sets are written as lists. -/
def writeAt (layout : Layout) (depth : Nat) : Value → List Char
  | .scalar s => writeScalar s
  | .pair a b =>
    '[' :: layout.lineBreak (depth + 1) ++ writeAt layout (depth + 1) a ++ layout.comma
      ++ layout.lineBreak (depth + 1) ++ writeAt layout (depth + 1) b
      ++ layout.lineBreak depth ++ [']']
  | .set [] => ['[', ']']
  | .set (s :: rest) =>
    '[' :: layout.lineBreak (depth + 1) ++ writeScalar s
      ++ rest.flatMap (fun s => layout.comma ++ layout.lineBreak (depth + 1) ++ writeScalar s)
      ++ layout.lineBreak depth ++ [']']
  | .list [] => ['[', ']']
  | .list (v :: rest) =>
    '[' :: layout.lineBreak (depth + 1) ++ writeAt layout (depth + 1) v
      ++ writeItems layout (depth + 1) rest ++ layout.lineBreak depth ++ [']']
  | .dict [] => ['\x7b', '\x7d']
  | .dict ((k, v) :: rest) =>
    '\x7b' :: layout.lineBreak (depth + 1) ++ writeKey k ++ ':' :: ' '
      :: writeAt layout (depth + 1) v
      ++ writeEntries layout (depth + 1) rest ++ layout.lineBreak depth ++ ['\x7d']

/-- The items after the first. -/
def writeItems (layout : Layout) (depth : Nat) : List Value → List Char
  | [] => []
  | v :: rest =>
    layout.comma ++ layout.lineBreak depth ++ writeAt layout depth v ++ writeItems layout depth rest

/-- The entries after the first. -/
def writeEntries (layout : Layout) (depth : Nat) : List (Scalar × Value) → List Char
  | [] => []
  | (k, v) :: rest =>
    layout.comma ++ layout.lineBreak depth ++ writeKey k ++ ':' :: ' ' :: writeAt layout depth v
      ++ writeEntries layout depth rest

end

/-- The text of a value, in which a string stands for what JSON has no form for. -/
def text (layout : Layout) (v : Value) : String := String.ofList (writeAt layout 0 v)

/-! ## Values without a text -/

/-- Why a scalar has no JSON text, if it has none; it is the same for a key. -/
def scalarRefusal? : Scalar → Option Fault
  | .bytes _ | .date _ | .moment _ => some .wrongType
  | .int n => if Integer.exceeds n then some .unwritable else none
  | .null | .bool _ | .float _ | .str _ => none

mutual

/-- Why a value has no JSON text, if it has none. The first part without a form decides, and a key
comes before its value. -/
def refusal? : Value → Option Fault
  | .scalar s => scalarRefusal? s
  | .list items => itemsRefusal? items
  | .pair a b => (refusal? a).or (refusal? b)
  | .set _ => some .wrongType
  | .dict entries => entriesRefusal? entries

def itemsRefusal? : List Value → Option Fault
  | [] => none
  | v :: rest => (refusal? v).or (itemsRefusal? rest)

def entriesRefusal? : List (Scalar × Value) → Option Fault
  | [] => none
  | (k, v) :: rest => (scalarRefusal? k).or ((refusal? v).or (entriesRefusal? rest))

end

/-- Fails if a value has no JSON text. -/
def check (v : Value) : Except Fault Unit :=
  match refusal? v with
  | some f => .error f
  | none => .ok ()

/-- The text of a value. -/
def write (layout : Layout) (v : Value) : Except Fault String := do
  check v
  return text layout v

/-- The value has a JSON text. -/
def Carried (v : Value) : Prop := refusal? v = none

instance (v : Value) : Decidable (Carried v) :=
  decidable_of_iff ((refusal? v).isNone = true) Option.isNone_iff_eq_none

/-- A value that has a JSON text. -/
structure Document where
  value : Value
  carried : Carried value

end CellNft.Json
