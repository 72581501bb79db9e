/-
CellNft.Logging.Retention — how long old log files are kept.

A span of time is written as amounts, each with a unit behind it, such as `1.5 weeks, 2 days`.
`Retention.span` reads one. A text that is no row of amounts and units at all is told apart from one
with a wrong amount or a wrong unit, and a span must be shorter than `10 ^ 9` days.

Letters of an exponent can be taken for a unit. Whether a text is a row is decided by `isRow`, which
tries every way to take it apart; its amounts and units are then those that `items` finds, each as
long as it can be.
-/
import CellNft.Value.Arithmetic

namespace CellNft.Logging.Retention

/-! ## Characters -/

def isAmountChar (c : Char) : Bool :=
  "eE+-.".contains c || (Text.decimalDigit? c).isSome

/-- The letter that a character counts as in a unit. Four characters outside ASCII count as the
ASCII letters they resemble. -/
def letter? (c : Char) : Option Char :=
  if c = 'İ' || c = 'ı' then some 'i'
  else if c = 'ſ' then some 's'
  else if c.toNat = 0x212a then some 'k'
  else if c.isAlpha then some c.toLower
  else none

def isLetter (c : Char) : Bool := (letter? c).isSome

/-- White space, the four separators of ASCII among it. -/
def isSpace (c : Char) : Bool := Text.isBlank c || (0x1c ≤ c.toNat && c.toNat ≤ 0x1f)

def isSeparator (c : Char) : Bool := isSpace c || c = ','

/-! ## Amounts and units -/

/-- Where in a row a character stands. -/
inductive Position where
  | start | amount | gap | unit | behind
deriving DecidableEq

/-- The positions a character can have behind one with the given position. -/
def Position.next (c : Char) (p : Position) : List Position :=
  let amount := if isAmountChar c then [amount] else []
  let gap := if isSpace c then [gap] else []
  let unit := if isLetter c then [unit] else []
  let behind := if isSeparator c then [behind] else []
  match p with
  | start => amount
  | .amount => amount ++ gap ++ unit
  | .gap => gap ++ unit
  | .unit => unit ++ behind ++ amount
  | .behind => behind ++ amount

/-- Whether a text is a row of at least one amount with its unit. -/
def isRow (s : List Char) : Bool :=
  let step (positions : List Position) (c : Char) : List Position :=
    (positions.flatMap fun p => p.next c).eraseDups
  let last := s.foldl step [.start]
  last.contains .unit || last.contains .behind

/-- An amount with its unit at the start of a text, and what follows. The amount is as long as it
can be with a letter left for the unit. -/
def item? (s : List Char) : Option ((List Char × List Char) × List Char) :=
  (List.range (s.takeWhile isAmountChar).length).reverse.findSome? fun n =>
    let behind := (s.drop (n + 1)).dropWhile isSpace
    let unit := behind.takeWhile isLetter
    if unit.isEmpty then none
    else some ((s.take (n + 1), unit), (behind.drop unit.length).dropWhile isSeparator)

/-- The amounts and units in a text; what is none is passed over. The length of the text is fuel
enough. -/
def items : (fuel : Nat) → List Char → List (List Char × List Char)
  | 0, _ | _, [] => []
  | fuel + 1, c :: rest =>
    match item? (c :: rest) with
    | some (found, rest) => found :: items fuel rest
    | none => items fuel rest

/-- The units, and their length as a number of seconds. -/
def units : List (List String × Scalar) := [
  (["y", "year", "years"], .int 31536000),
  (["month", "months"], .int 2628000),
  (["w", "week", "weeks"], .int 604800),
  (["d", "day", "days"], .int 86400),
  (["h", "hour", "hours"], .int 3600),
  (["min", "mins", "minute", "minutes"], .int 60),
  (["s", "sec", "secs", "second", "seconds"], .int 1),
  (["ms", "millisecond", "milliseconds"], .float (Binary64.ofDecimal false 1 (-3))),
  (["us", "microsecond", "microseconds"], .float (Binary64.ofDecimal false 1 (-6)))]

/-- The length of a unit. -/
def unit? (s : List Char) : Option Scalar :=
  (units.find? (·.1.contains (String.ofList (s.filterMap letter?)))).map (·.2)

/-- The sum of seconds and of the given amounts with their units. -/
def addAll (sum : Scalar) : List (List Char × List Char) → Except Fault Scalar
  | [] => .ok sum
  | (amount, unit) :: rest => do
    match Decimal.read? amount, unit? unit with
    | none, _ => throw (.spanAmount (String.ofList amount))
    | some _, none => throw (.spanUnit (String.ofList unit))
    | some x, some u => addAll (← sum.add (← (Scalar.float x).mul u)) rest

/-! ## Spans -/

/-- The microseconds of a day. -/
def dayLength : Int := 86400000000

/-- The greatest number of days in a span. -/
def mostDays : Int := 999999999

/-- A number of seconds as the nearest whole number of microseconds. -/
def microseconds (seconds : Rat) : Int :=
  let n := seconds * 1000000
  let magnitude := Binary64.roundHalfEven n.num.natAbs n.den
  if n < 0 then -(magnitude : Int) else magnitude

/-- The microseconds of a span that is written as a text. -/
def span (t : Text) : Except Fault Int := do
  let s := t.chars.dropWhile isSpace
  if !isRow s then throw (.spanUnreadable t)
  match ← addAll (.int 0) (items s.length s) with
  | .float x =>
    match x.view, x.toRat? with
    | .finite .., some r =>
      let n := microseconds r
      let days := n.fdiv dayLength
      if mostDays < days.natAbs then throw (.spanTooLong days) else return n
    | .infinite _, _ => throw (.notFinite true)
    | _, _ => throw (.notFinite false)
  | _ => return 0

/-- The span of a number of days. -/
def ofDays (days : Value) : Except Fault Int := span (days.display ++ " days")

end CellNft.Logging.Retention
