import Letterhead.Text.Basic
/-
# Dates and times

Dates and times of a configuration file, in the two forms in which they are
shown: the standard one, and the one inside messages.
-/
namespace Letterhead

/-- A day of the calendar. -/
structure Date where
  year : Nat
  month : Nat
  day : Nat
deriving DecidableEq, Repr

/-- A time of day, to the microsecond. -/
structure Time where
  hour : Nat
  minute : Nat
  second : Nat
  micro : Nat
deriving DecidableEq, Repr

namespace Date

/-- Whether a year has a 29th of February. -/
def isLeap (year : Nat) : Bool := year % 4 = 0 && (year % 100 ≠ 0 || year % 400 = 0)

/-- The number of days of a month. -/
def daysIn (year month : Nat) : Nat :=
  if month = 2 then if isLeap year then 29 else 28
  else if month = 4 || month = 6 || month = 9 || month = 11 then 30
  else 31

def isValid (d : Date) : Bool :=
  1 ≤ d.year && 1 ≤ d.month && d.month ≤ 12 && 1 ≤ d.day && d.day ≤ daysIn d.year d.month

/-- The day that comes so many days after the first of January 1970. Years are
counted from March, so that a leap day is the last of its year, and in rounds of
400 years, which all have 146097 days. -/
def ofDayNumber (n : Nat) : Date :=
  let day := n + 719468
  let round := day / 146097
  let inRound := day % 146097
  let yearInRound := (inRound - inRound / 1460 + inRound / 36524 - inRound / 146096) / 365
  let inYear := inRound - (365 * yearInRound + yearInRound / 4 - yearInRound / 100)
  let march := (5 * inYear + 2) / 153
  let month := if march < 10 then march + 3 else march - 9
  let year := yearInRound + round * 400 + if month ≤ 2 then 1 else 0
  ⟨year, month, inYear - (153 * march + 2) / 5 + 1⟩

def standard (d : Date) : Text :=
  Text.ofNatPadded 10 4 d.year ++ '-' :: Text.ofNatPadded 10 2 d.month ++
    '-' :: Text.ofNatPadded 10 2 d.day

/-- The parts, as in a call. -/
def parts (d : Date) : List Text := [d.year, d.month, d.day].map Text.ofNat

end Date

namespace Time

/-- The standard form; a fraction has six places or is left out. -/
def standard (t : Time) : Text :=
  Text.ofNatPadded 10 2 t.hour ++ ':' :: Text.ofNatPadded 10 2 t.minute ++
    ':' :: Text.ofNatPadded 10 2 t.second ++
    (if t.micro = 0 then [] else '.' :: Text.ofNatPadded 10 6 t.micro)

/-- The parts, as in a call: seconds and the fraction are left out at the end when zero. -/
def parts (t : Time) : List Text :=
  let tail :=
    if t.micro ≠ 0 then [t.second, t.micro] else if t.second ≠ 0 then [t.second] else []
  (t.hour :: t.minute :: tail).map Text.ofNat

end Time

/-- The distance from universal time, in minutes. -/
abbrev UtcOffset := Int

namespace UtcOffset

def standard (o : UtcOffset) : Text :=
  (if o < 0 then '-' else '+') :: (Text.ofNatPadded 10 2 (o.natAbs / 60) ++
    ':' :: Text.ofNatPadded 10 2 (o.natAbs % 60))

/-- The form inside messages: whole days and the seconds beyond them. -/
def shown (o : UtcOffset) : Text :=
  if o = 0 then "datetime.timezone.utc".toList
  else
    let seconds := Int.emod (o * 60) 86400
    let days := Int.ediv (o * 60) 86400
    let dayPart := if days = 0 then [] else ["days=".toList ++ Text.ofInt days]
    let secondPart := if seconds = 0 then [] else ["seconds=".toList ++ Text.ofInt seconds]
    "datetime.timezone(datetime.timedelta(".toList ++
      Text.joinWith ", ".toList (dayPart ++ secondPart) ++ "))".toList

end UtcOffset
end Letterhead
