/-!
The proleptic Gregorian calendar. Days are counted from 1970-01-01, which is day 0.
-/

namespace Newsfeed.Time

structure Date where
  year : Int
  month : Nat
  day : Nat
  deriving DecidableEq, Repr

def isLeapYear (y : Int) : Bool := y % 4 == 0 && (y % 100 != 0 || y % 400 == 0)

def monthLengths (y : Int) : List Nat :=
  [31, if isLeapYear y then 29 else 28, 31, 30, 31, 30, 31, 31, 30, 31, 30, 31]

/-- The length of a month, 0 for a month that is not one of 1 to 12. -/
def daysInMonth (y : Int) (m : Nat) : Nat :=
  if m = 0 then 0 else (monthLengths y)[m - 1]?.getD 0

/-- The first and last year with dates. -/
def firstYear : Int := -262143

def lastYear : Int := 262142

/-- The date exists: its month and day do, and its year is one that dates have. -/
def Date.isValid (d : Date) : Bool :=
  decide (firstYear ≤ d.year) && decide (d.year ≤ lastYear) &&
    decide (1 ≤ d.day) && decide (d.day ≤ daysInMonth d.year d.month)

/-- The day number of January 1st. Each of the years before it has 365 days, a leap year one
more. -/
def yearStart (y : Int) : Int :=
  365 * (y - 1) + (y - 1) / 4 - (y - 1) / 100 + (y - 1) / 400 - 719162

def daysBeforeMonth (y : Int) (m : Nat) : Nat :=
  ((monthLengths y).take (m - 1)).foldl (· + ·) 0

def Date.toDay (d : Date) : Int :=
  yearStart d.year + daysBeforeMonth d.year d.month + d.day - 1

/-- The year that holds a day. Four centuries have 146097 days, so the mean length of a year gives
it up to one. -/
def yearOfDay (n : Int) : Int :=
  let y := (400 * (n + 719162)) / 146097 + 1
  if n < yearStart y then y - 1
  else if yearStart (y + 1) ≤ n then y + 1
  else y

/-- Walks the months from `m` on: the month and the day of it that is `k` days after the first
of `m`. -/
def monthWalk (m : Nat) : List Nat → Nat → Nat × Nat
  | [], k => (m, k + 1)
  | l :: ls, k => if k < l then (m, k + 1) else monthWalk (m + 1) ls (k - l)

def Date.ofDay (n : Int) : Date :=
  let y := yearOfDay n
  let md := monthWalk 1 (monthLengths y) (n - yearStart y).toNat
  ⟨y, md.1, md.2⟩

/-- Days since Monday. Day 0 is a Thursday. -/
def weekday (n : Int) : Int := (n + 3) % 7

/-- A Monday-to-Sunday week belongs to the year of its Thursday, and is numbered by it. -/
def isoWeek (n : Int) : Int × Int :=
  let thursday := n - weekday n + 3
  let y := yearOfDay thursday
  (y, (thursday - yearStart y) / 7 + 1)

end Newsfeed.Time
