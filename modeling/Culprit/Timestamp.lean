/-!
The date and time of a moment in universal time. Days are counted in the calendar of today, whose
years repeat every 146097 days, and a year is taken to begin in March, so that the day that only
some years have comes last.
-/

namespace Culprit

/-- A moment, counted from the first one of 1970. -/
structure Timestamp where
  seconds : Int
  /-- Less than one second. -/
  nanoseconds : Nat
deriving DecidableEq, Repr

namespace Timestamp

structure Date where
  year : Int
  month : Nat
  day : Nat
deriving DecidableEq, Repr

def daysOfCycle : Nat := 146097

/-- Days between the first of March of the year zero and the first of January 1970. -/
def epochDay : Int := 719468

/-- Years, counted from March, that are over on a day of a cycle. -/
def yearOfCycle (day : Nat) : Nat :=
  (day - day / 1460 + day / 36524 - day / 146096) / 365

/-- The day within a year that begins in March. -/
def dayOfYear (day : Nat) : Nat :=
  let y := yearOfCycle day
  day - (365 * y + y / 4 - y / 100)

/-- The date of the day with the given number, where zero is the first of January 1970. -/
def dateOfDay (n : Int) : Date :=
  let n := n + epochDay
  let cycle := n / daysOfCycle
  let day := (n % daysOfCycle).toNat
  let inYear := dayOfYear day
  -- From March on, five months have 153 days.
  let m := (5 * inYear + 2) / 153
  let month := if m < 10 then m + 3 else m - 9
  { year := cycle * 400 + yearOfCycle day + (if month ≤ 2 then 1 else 0)
    month := month
    day := inYear - (153 * m + 2) / 5 + 1 }

example : dateOfDay 0 = ⟨1970, 1, 1⟩ := by decide

example : dateOfDay 19782 = ⟨2024, 2, 29⟩ := by decide

def padded (width n : Nat) : String :=
  let digits := Nat.toDigits 10 n
  String.ofList (List.replicate (width - digits.length) '0' ++ digits)

/-- The fraction of a second without zeros at its end; nothing when it is zero. -/
def fraction (nanoseconds : Nat) : String :=
  if nanoseconds = 0 then ""
  else
    let digits := (padded 9 nanoseconds).toList.reverse.dropWhile (· = '0')
    "." ++ String.ofList digits.reverse

def Date.text (d : Date) : String :=
  padded 4 d.year.toNat ++ "-" ++ padded 2 d.month ++ "-" ++ padded 2 d.day

def text (t : Timestamp) : String :=
  let second := (t.seconds % 86400).toNat
  (dateOfDay (t.seconds / 86400)).text ++ "T" ++ padded 2 (second / 3600) ++ ":" ++
    padded 2 (second / 60 % 60) ++ ":" ++ padded 2 (second % 60) ++ fraction t.nanoseconds ++ "Z"

end Timestamp

end Culprit
