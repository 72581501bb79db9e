/-
CellNft.Calendar.Moment — dates with a time of day.

* `Moment` is exact to the microsecond. It may know its clock, which is ahead of universal time by
  some minutes and less than a day.
* `Moment.same` compares two moments whose clocks are known by the instant they name. Without clocks
  all parts must agree, and a moment with a clock is never the same as one without.
* `Moment.text` writes a moment from the year down to the offset of the clock.
-/
import CellNft.Calendar.Date

namespace CellNft.Calendar

/-- How far a clock is ahead of universal time. -/
structure Offset where
  minutes : Int
  minutes_fit : -1440 < minutes ∧ minutes < 1440
deriving DecidableEq

def Offset.ofMinutes (minutes : Int) : Except Misfit Offset :=
  if minutes_fit : -1440 < minutes ∧ minutes < 1440 then .ok { minutes, minutes_fit }
  else .error (.offset minutes)

structure Moment where
  date : Date
  hour : Fin 24
  minute : Fin 60
  second : Fin 60
  microsecond : Fin 1000000
  offset : Option Offset
deriving DecidableEq

namespace Moment

/-- The moment on a date with the given time of day, if there is one. -/
def ofParts (date : Date) (hour minute second : Nat) (microsecond : Fin 1000000)
    (offset : Option Offset) : Except Misfit Moment :=
  if h : hour < 24 then
    if m : minute < 60 then
      if s : second < 60 then
        .ok { date, hour := ⟨hour, h⟩, minute := ⟨minute, m⟩, second := ⟨second, s⟩, microsecond,
              offset }
      else .error .second
    else .error .minute
  else .error .hour

/-- The microseconds that the clock at the place of the moment has counted. -/
def clockTime (t : Moment) : Nat :=
  (((t.date.ordinal * 24 + t.hour) * 60 + t.minute) * 60 + t.second) * 1000000 + t.microsecond

/-- The microseconds of universal time under a known clock. -/
def instant (t : Moment) (clock : Offset) : Int := t.clockTime - clock.minutes * 60000000

/-- Whether two moments are one. -/
def same (a b : Moment) : Bool :=
  match a.offset, b.offset with
  | some x, some y => a.instant x = b.instant y
  | none, none => a = b
  | _, _ => false

/-- Hours and minutes of an offset, with its sign. -/
def offsetText (o : Offset) : List Char :=
  let n := o.minutes.natAbs
  (if o.minutes < 0 then '-' else '+') :: padded 2 (n / 60) ++ ':' :: padded 2 (n % 60)

/-- A moment; a fraction of a second stands there only if it is not zero. -/
def text (t : Moment) : List Char :=
  t.date.text ++ ' ' :: padded 2 t.hour ++ ':' :: padded 2 t.minute ++ ':' :: padded 2 t.second
    ++ (if t.microsecond.val = 0 then [] else '.' :: padded 6 t.microsecond)
    ++ (t.offset.map offsetText).getD []

end Moment
end CellNft.Calendar
