/-
CellNft.Yaml.Timestamp — dates and moments as documents write them.

A timestamp is a year of four digits, a month and a day with hyphens between them. A time of day may
follow behind a `T` or blanks: hours, minutes and seconds with colons, perhaps a fraction of a
second, and perhaps a clock, which is `Z` or an offset in hours or in hours and minutes.

`Timestamp.read?` only reads the numbers. Whether they name a day and a time of day is decided by
`Timestamp.toScalar`.
-/
import CellNft.Fault
import CellNft.Yaml.Character

namespace CellNft.Yaml

namespace Timestamp

structure Time where
  hour : Nat
  minute : Nat
  second : Nat
  /-- The digits behind the point. -/
  fraction : List Char
  /-- The minutes of the offset. -/
  offset : Option Int

end Timestamp

structure Timestamp where
  year : Nat
  month : Nat
  day : Nat
  time : Option Timestamp.Time

namespace Timestamp

def value (digits : List Char) : Nat :=
  digits.foldl (fun n c => n * 10 + (c.toNat - '0'.toNat)) 0

/-- A number of `least` to `most` digits. -/
def number? (least most : Nat) (s : List Char) : Option (Nat × List Char) :=
  let digits := (s.take most).takeWhile isDigit
  if digits.length < least then none else some (value digits, s.drop digits.length)

def behind? (c : Char) : List Char → Option (List Char)
  | d :: rest => if d = c then some rest else none
  | [] => none

/-- The offset of a clock behind its sign, in minutes. -/
def offset? (s : List Char) : Option Nat := do
  let (hours, s) ← number? 1 2 s
  match s with
  | [] => return hours * 60
  | s =>
    let (minutes, rest) ← number? 2 2 (← behind? ':' s)
    if rest.isEmpty then return hours * 60 + minutes else none

/-- The clock at the end of a timestamp; nothing is an unknown one. -/
def clock? (s : List Char) : Option (Option Int) :=
  if s.isEmpty then some none
  else
    match s.dropWhile isBlank with
    | ['Z'] => some (some 0)
    | '+' :: rest => (offset? rest).map fun n => some (n : Int)
    | '-' :: rest => (offset? rest).map fun n => some (-(n : Int))
    | _ => none

/-- The time of day behind what separates it from the date. -/
def time? (s : List Char) : Option Time := do
  let (hour, s) ← number? 1 2 s
  let (minute, s) ← number? 2 2 (← behind? ':' s)
  let (second, s) ← number? 2 2 (← behind? ':' s)
  let (fraction, s) := match s with
    | '.' :: s => (s.takeWhile isDigit, s.dropWhile isDigit)
    | s => ([], s)
  return { hour, minute, second, fraction, offset := ← clock? s }

/-- The numbers of a timestamp. -/
def read? (s : List Char) : Option Timestamp := do
  let (year, s) ← number? 4 4 s
  let (month, s) ← number? 1 2 (← behind? '-' s)
  let (day, s) ← number? 1 2 (← behind? '-' s)
  match s with
  | [] => return { year, month, day, time := none }
  | c :: rest =>
    if c = 'T' || c = 't' then return { year, month, day, time := ← time? rest }
    else if isBlank c then return { year, month, day, time := ← time? (rest.dropWhile isBlank) }
    else none

/-- Whether a text is a timestamp without being marked as one: a date alone must have two digits for
the month and for the day. -/
def isPlain (s : List Char) : Bool :=
  match read? s with
  | some t => t.time.isSome || s.length = 10
  | none => false

/-- The microseconds that the first six digits of a fraction make. -/
def microsecond (fraction : List Char) : Fin 1000000 :=
  let digits := fraction.take 6
  Fin.ofNat 1000000 (value digits * Nat.pow 10 (6 - digits.length))

/-- The date or the moment that a timestamp names. The offset is looked at first. -/
def toScalar (t : Timestamp) : Except Calendar.Misfit Scalar := do
  match t.time with
  | none => return .date (← Calendar.Date.ofParts t.year t.month t.day)
  | some time =>
    let offset ← time.offset.mapM Calendar.Offset.ofMinutes
    let date ← Calendar.Date.ofParts t.year t.month t.day
    let microsecond := microsecond time.fraction
    return .moment
      (← Calendar.Moment.ofParts date time.hour time.minute time.second microsecond offset)

end Timestamp
end CellNft.Yaml
