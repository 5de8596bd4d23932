import DefinitionSite.Text.Basic

/-! Dates and times of day as they are written in files and reports. -/
namespace DefinitionSite

structure Date where
  year : Nat
  month : Nat
  day : Nat
  deriving Repr, DecidableEq

structure Clock where
  hour : Nat
  minute : Nat
  second : Nat
  micros : Nat
  deriving Repr, DecidableEq

/-- A date with a time of day, and how far its zone is ahead of universal time, in microseconds. -/
structure Moment where
  date : Date
  clock : Clock
  offset : Option Int
  deriving Repr, DecidableEq

namespace Date

def isLeap (year : Nat) : Bool := year % 4 == 0 && (year % 100 != 0 || year % 400 == 0)

def daysIn (year month : Nat) : Nat :=
  if month == 2 then if isLeap year then 29 else 28
  else if month == 4 || month == 6 || month == 9 || month == 11 then 30
  else 31

def isValid (d : Date) : Bool :=
  1 ≤ d.year && 1 ≤ d.month && d.month ≤ 12 && 1 ≤ d.day && d.day ≤ daysIn d.year d.month

end Date

def padded (width n : Nat) : String :=
  let digits := toString n
  String.ofList (List.replicate (width - digits.length) '0') ++ digits

def Date.text (d : Date) : String :=
  padded 4 d.year ++ "-" ++ padded 2 d.month ++ "-" ++ padded 2 d.day

def Clock.text (c : Clock) : String :=
  padded 2 c.hour ++ ":" ++ padded 2 c.minute ++ ":" ++ padded 2 c.second ++
    (if c.micros == 0 then "" else "." ++ padded 6 c.micros)

/-- The distance of a zone from universal time, with seconds and their decimals if there are any. -/
def offsetText (offset : Int) : String :=
  let micros := offset.natAbs
  let size := micros / 1000000
  (if offset < 0 then "-" else "+") ++ padded 2 (size / 3600) ++ ":" ++ padded 2 (size / 60 % 60) ++
    (if micros % 60000000 == 0 then "" else ":" ++ padded 2 (size % 60)) ++
    (if micros % 1000000 == 0 then "" else "." ++ padded 6 (micros % 1000000))

/-- A span of time in days, seconds and microseconds, of which only the days can be negative. -/
def spanText (micros : Int) : String :=
  let days := Int.fdiv micros 86400000000
  let rest := micros - days * 86400000000
  let part := fun (name : String) (n : Int) => if n == 0 then [] else [name ++ "=" ++ toString n]
  "datetime.timedelta(" ++
    ", ".intercalate (part "days" days ++ part "seconds" (rest / 1000000) ++
      part "microseconds" (rest % 1000000)) ++ ")"

def Moment.textWith (sep : String) (m : Moment) : String :=
  m.date.text ++ sep ++ m.clock.text ++ (m.offset.map offsetText).getD ""

end DefinitionSite
