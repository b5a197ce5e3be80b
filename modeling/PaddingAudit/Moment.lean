/-!
# Moments

A date and time of day as it is written into log files and their names. A run has one moment: its
clock stands still, so that what it writes is a function of its input.
-/

namespace PaddingAudit

structure Moment where
  year : Nat
  month : Nat
  day : Nat
  hour : Nat
  minute : Nat
  second : Nat
  deriving DecidableEq, Repr, Inhabited

namespace Moment

/-- A number with zeros in front of it up to a width. -/
def padded (width n : Nat) : String :=
  let digits := Nat.toDigits 10 n
  String.ofList (List.replicate (width - digits.length) '0' ++ digits)

/-- The date, its parts joined by `sep`. -/
def date (m : Moment) (sep : String) : String :=
  sep.intercalate [padded 4 m.year, padded 2 m.month, padded 2 m.day]

/-- The time of day, its parts joined by `sep`. -/
def time (m : Moment) (sep : String) : String :=
  sep.intercalate [padded 2 m.hour, padded 2 m.minute, padded 2 m.second]

def fileStamp (m : Moment) : String :=
  m.date "" ++ "_" ++ m.time ""

def lineStamp (m : Moment) : String :=
  m.date "-" ++ " " ++ m.time ":"

end Moment

end PaddingAudit
