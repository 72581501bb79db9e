/-
CellNft.Value.Display — values inside messages.

* `Value.display` writes a text as it is, dates and moments as people do, and everything else as
  `quoted` does.
* `Value.quoted` is unambiguous: a text stands in quotes, with escapes for what cannot be printed.
  It is a string, because the halves of surrogate pairs are among that.

The quotes are single, unless the text holds a single quote and no double one. Bytes are quoted like
text of ASCII characters, with a mark in front.

`Value.isWritable` is whether this can be done at all, as a whole number may be too long.
-/
import CellNft.Number.Integer
import CellNft.Number.Shortest
import CellNft.Text.Printable
import CellNft.Value.Basic

namespace CellNft

namespace Text

/-- The `width` lower case hex digits of `n`, filled up with zeros. -/
def hexPadded (width n : Nat) : List Char :=
  let digits := Nat.toDigits 16 n
  List.replicate (width - digits.length) '0' ++ digits

/-- A character inside quoted text. -/
def quoteChar (quote c : Char) : List Char :=
  if c = quote || c = '\\' then ['\\', c]
  else if c = '\n' then ['\\', 'n']
  else if c = '\r' then ['\\', 'r']
  else if c = '\t' then ['\\', 't']
  else if isPrintable c then [c]
  else if c.toNat < 0x100 then '\\' :: 'x' :: hexPadded 2 c.toNat
  else if c.toNat < 0x10000 then '\\' :: 'u' :: hexPadded 4 c.toNat
  else '\\' :: 'U' :: hexPadded 8 c.toNat

/-- A code point inside quoted text. -/
def quotePoint (quote : Char) : CodePoint → List Char
  | .char c => quoteChar quote c
  | p => '\\' :: 'u' :: hexPadded 4 p.toNat

/-- The text in quotes. -/
def quoted (t : Text) : List Char :=
  let holds (c : Char) : Bool := t.points.contains (.char c)
  let quote := if holds '\'' && !holds '"' then '"' else '\''
  quote :: t.points.flatMap (quotePoint quote) ++ [quote]

end Text

/-! ## Bytes, dates and moments -/

/-- A byte inside quoted bytes. -/
def Bytes.quoteByte (quote : Char) (b : UInt8) : List Char :=
  if b.toNat < 0x80 then Text.quoteChar quote (Char.ofNat b.toNat)
  else '\\' :: 'x' :: Text.hexPadded 2 b.toNat

/-- Bytes in quotes. -/
def Bytes.quoted (b : Bytes) : List Char :=
  let quote := if b.contains 0x27 && !b.contains 0x22 then '"' else '\''
  'b' :: quote :: b.flatMap (Bytes.quoteByte quote) ++ [quote]

namespace Calendar

/-- What stands in a call for the given arguments. -/
def callText (name : String) (arguments : List String) : String :=
  "datetime." ++ name ++ "(" ++ ", ".intercalate arguments ++ ")"

/-- A number of minutes as days and seconds; what is zero is left out. -/
def spanText (minutes : Int) : String :=
  let days := minutes.fdiv 1440
  let seconds := minutes.fmod 1440 * 60
  let parts := (if days = 0 then [] else ["days=" ++ toString days])
    ++ (if seconds = 0 then [] else ["seconds=" ++ toString seconds])
  callText "timedelta" (if parts.isEmpty then ["0"] else parts)

def Date.quoted (d : Date) : String :=
  callText "date" ([d.year, d.month, d.day].map toString)

def Offset.quoted (o : Offset) : String :=
  if o.minutes = 0 then "datetime.timezone.utc" else callText "timezone" [spanText o.minutes]

/-- A moment by its parts; seconds and what is smaller are left out if they are zero. -/
def Moment.quoted (t : Moment) : String :=
  let small :=
    if t.microsecond.val ≠ 0 then [t.second.val, t.microsecond.val]
    else if t.second.val ≠ 0 then [t.second.val] else []
  let parts := [t.date.year, t.date.month, t.date.day, t.hour.val, t.minute.val] ++ small
  callText "datetime" (parts.map toString ++ (t.offset.map ("tzinfo=" ++ ·.quoted)).toList)

end Calendar

/-! ## Values -/

namespace Scalar

def quoted : Scalar → String
  | .null => "None"
  | .bool b => if b then "True" else "False"
  | .int n => toString n
  | .float x => x.text
  | .str t => String.ofList t.quoted
  | .bytes b => String.ofList b.quoted
  | .date d => d.quoted
  | .moment t => t.quoted

def display : Scalar → Text
  | .str t => t
  | .date d => .ofChars d.text
  | .moment t => .ofChars t.text
  | s => s.quoted

end Scalar

namespace Value

mutual

def quoted : Value → String
  | .scalar s => s.quoted
  | .list items => "[" ++ ", ".intercalate (quotedItems items) ++ "]"
  | .pair a b => "(" ++ a.quoted ++ ", " ++ b.quoted ++ ")"
  | .set [] => "set()"
  | .set members => "\x7b" ++ ", ".intercalate (members.map Scalar.quoted) ++ "\x7d"
  | .dict entries => "\x7b" ++ ", ".intercalate (quotedEntries entries) ++ "\x7d"

def quotedItems : List Value → List String
  | [] => []
  | v :: rest => v.quoted :: quotedItems rest

def quotedEntries : List (Scalar × Value) → List String
  | [] => []
  | (k, v) :: rest => (k.quoted ++ ": " ++ v.quoted) :: quotedEntries rest

end

def display : Value → Text
  | .scalar s => s.display
  | v => v.quoted

end Value

/-! ## Numbers that are too long -/

/-- Whether a scalar is no number that is too long to be written. -/
def Scalar.isWritable : Scalar → Bool
  | .int n => !Integer.exceeds n
  | _ => true

namespace Value

mutual

/-- Whether no part of a value is such a number. -/
def isWritable : Value → Bool
  | .scalar s => s.isWritable
  | .list items => areWritable items
  | .pair a b => a.isWritable && b.isWritable
  | .set members => members.all Scalar.isWritable
  | .dict entries => entriesWritable entries

def areWritable : List Value → Bool
  | [] => true
  | v :: rest => v.isWritable && areWritable rest

def entriesWritable : List (Scalar × Value) → Bool
  | [] => true
  | (k, v) :: rest => k.isWritable && v.isWritable && entriesWritable rest

end

end Value
end CellNft
