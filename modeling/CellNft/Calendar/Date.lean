/-
CellNft.Calendar.Date — days of the Gregorian calendar.

* `Date` is a day of the years 1 to 9999. Its fields carry the proof that the day exists.
* `Date.ofParts` refuses every other combination. `Misfit` says which part is out of range, and of
  several such parts the first one in the order year, month, day, hour, minute, second is named.
* `Date.ordinal` counts the days since the last one before the year 1.
-/
namespace CellNft.Calendar

/-- The part of a date, a time of day or a clock that is out of range. -/
inductive Misfit where
  | year (year : Nat)
  | month
  | day
  | hour
  | minute
  | second
  | offset (minutes : Int)
deriving DecidableEq, Inhabited

/-- Every fourth year is a leap year, except full centuries not divisible by four hundred. -/
def isLeap (year : Nat) : Bool := year % 4 = 0 && (year % 100 ≠ 0 || year % 400 = 0)

/-- How many days a month has. -/
def daysIn (year month : Nat) : Nat :=
  match month with
  | 2 => if isLeap year then 29 else 28
  | 4 | 6 | 9 | 11 => 30
  | _ => 31

structure Date where
  year : Nat
  month : Nat
  day : Nat
  year_fits : 1 ≤ year ∧ year ≤ 9999
  month_fits : 1 ≤ month ∧ month ≤ 12
  day_fits : 1 ≤ day ∧ day ≤ daysIn year month
deriving DecidableEq

namespace Date

/-- The date with the given parts, if there is one. -/
def ofParts (year month day : Nat) : Except Misfit Date :=
  if year_fits : 1 ≤ year ∧ year ≤ 9999 then
    if month_fits : 1 ≤ month ∧ month ≤ 12 then
      if day_fits : 1 ≤ day ∧ day ≤ daysIn year month then
        .ok { year, month, day, year_fits, month_fits, day_fits }
      else .error .day
    else .error .month
  else .error (.year year)

/-- How many days came before a year. -/
def daysBeforeYear (year : Nat) : Nat :=
  let past := year - 1
  365 * past + past / 4 - past / 100 + past / 400

/-- How many days of a year come before a month. -/
def daysBeforeMonth (year month : Nat) : Nat :=
  (List.range' 1 (month - 1)).foldl (fun days m => days + daysIn year m) 0

/-- The number of the day; the first day of the year 1 has number one. -/
def ordinal (d : Date) : Nat := daysBeforeYear d.year + daysBeforeMonth d.year d.month + d.day

end Date

/-- The decimal digits of a number, filled up with zeros. -/
def padded (width n : Nat) : List Char :=
  let digits := Nat.toDigits 10 n
  List.replicate (width - digits.length) '0' ++ digits

/-- Year, month and day with hyphens between them. -/
def Date.text (d : Date) : List Char :=
  padded 4 d.year ++ '-' :: padded 2 d.month ++ '-' :: padded 2 d.day

end CellNft.Calendar
