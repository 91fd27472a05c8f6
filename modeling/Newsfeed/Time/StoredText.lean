import Newsfeed.Time.Fields

/-!
The text in which times are stored and compared: `YYYY-MM-DD HH:MM:SS` in UTC.
-/

namespace Newsfeed.Time

open Newsfeed.Text

def storedPattern : Pattern :=
  [.year, .char '-', .month, .char '-', .day, .blanks,
   .hour, .char ':', .minute, .char ':', .second]

/-- The fraction of a second is cut off. -/
def Instant.storedText (t : Instant) : String := t.date.text ++ " " ++ t.clockText

/-- Reads a stored time. The blanks between date and time may be any number, also none. -/
def Instant.ofStoredText? (s : String) : Option Instant :=
  match storedPattern.read? s.toList with
  | some f => if f.isValid then some (f.instant 0) else none
  | none => none

/-- The year and number of the week of a stored time, as `YYYY-WW`. -/
def weekText? (s : String) : Option String :=
  (Instant.ofStoredText? s).map fun t =>
    let (y, w) := isoWeek t.day
    (if y < 0 then "-" ++ padded 3 y.natAbs else padded 4 y.toNat) ++ "-" ++ padded 2 w.toNat

end Newsfeed.Time
