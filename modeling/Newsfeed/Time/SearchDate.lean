import Newsfeed.Text.Lowercase
import Newsfeed.Time.Fields
import Newsfeed.Time.Zone

/-!
Dates in a search: `today`, `2024-01-31`, `3 days ago`. Each denotes an instant, read on the clock
of the owner's zone, and stands for the UTC day of that instant.
-/

namespace Newsfeed.Time

open Newsfeed.Text

/-- The ways to write a calendar day, in the order in which they are tried. -/
def dayPatterns : List Pattern :=
  [[.year, .char '-', .month, .char '-', .day],
   [.year, .char '/', .month, .char '/', .day],
   [.day, .char '.', .month, .char '.', .year],
   [.year, .month, .day]]

/-- The calendar day that a text writes. -/
def readDay? (cs : List Char) : Option Int :=
  dayPatterns.findSome? fun p =>
    (p.read? cs).bind fun f => if f.date.isValid then some f.date.toDay else none

/-- The seconds of a unit of time, with or without `s` at the end. A month has 30 days and a year
has 365. -/
def unitSeconds? (cs : List Char) : Option Int :=
  let word := String.ofList (cs.reverse.dropWhile (· = 's')).reverse
  if word = "min" ∨ word = "minute" then some 60
  else if word = "hour" ∨ word = "h" then some 3600
  else if word = "day" ∨ word = "d" then some 86400
  else if word = "week" ∨ word = "w" then some 604800
  else if word = "month" then some 2592000
  else if word = "year" ∨ word = "y" then some 31536000
  else none

/-- The text without a final `ago` and the blanks before it. -/
def stripAgo? (cs : List Char) : Option (List Char) :=
  if "ago".toList.isSuffixOf cs then some (trimEnd (cs.take (cs.length - 3))) else none

/-- An unsigned amount with its unit, in seconds. -/
def readSpan? (cs : List Char) : Option Int := do
  let cs := trimStart cs
  let ds := cs.takeWhile Char.isDigit
  let amount ← readInt64? ds
  let unit ← unitSeconds? (trimChars (cs.drop ds.length))
  span? unit amount

/-- A signed span of time: back with a minus sign or with `ago`, which takes no sign. -/
def readShift? (cs : List Char) : Option Int :=
  match stripAgo? cs with
  | some ('+' :: _) => none
  | some ('-' :: _) => none
  | some rest => (readSpan? rest).map (- ·)
  | none => match cs with
    | '-' :: rest => (readSpan? rest).map (- ·)
    | '+' :: rest => readSpan? rest
    | rest => readSpan? rest

/-- A day that was to be looked up lies before the first day of the calendar or after the last. -/
structure OffCalendar where
  day : Int
  deriving DecidableEq, Repr

/-- A day of the calendar. With any other there is no going on. -/
def calendarDay (n : Int) : Except OffCalendar Int :=
  if yearStart firstYear ≤ n ∧ n < yearStart (lastYear + 1) then .ok n else .error ⟨n⟩

namespace Clock

/-- The instant at which a local day starts. -/
def start? (c : Clock) (day : Int) : Option Instant := (c.dayStart? day).map fun s => ⟨s, 0⟩

/-- The instant that a date in a search denotes. The local day of now is looked up whatever the
text is. -/
def searchInstant (c : Clock) (text : String) (now : Instant) :
    Except OffCalendar (Option Instant) :=
  let cs := lowerChars (trimChars text.toList)
  (calendarDay (c.dayAt now)).bind fun today =>
    if cs = [] then .ok none
    else if cs = "now".toList then .ok (some now)
    else if cs = "today".toList then .ok (c.start? today)
    else if cs = "yesterday".toList then (calendarDay (today - 1)).map c.start?
    else if cs = "tomorrow".toList then (calendarDay (today + 1)).map c.start?
    else match readDay? cs with
      | some day => .ok (c.start? day)
      | none => .ok ((readShift? cs).bind now.shift?)

/-- The UTC day that a date in a search stands for, as `YYYY-MM-DD`. -/
def searchDay (c : Clock) (text : String) (now : Instant) : Except OffCalendar (Option String) :=
  (c.searchInstant text now).map fun t? => t?.map fun t => t.date.text

end Clock

/-- The UTC day of a date in the zone of an owner. What is off the calendar is no day. -/
def searchDay? (text : String) (now : Instant) (zone : Zone) : Option String :=
  match zone.clock.searchDay text now with
  | .ok day? => day?
  | .error _ => none

end Newsfeed.Time
