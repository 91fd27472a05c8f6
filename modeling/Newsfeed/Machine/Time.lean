import Newsfeed.Machine.Word
import Newsfeed.Time.SearchDate

/-!
Times on a machine. An amount of a unit is multiplied out to seconds in checked steps; if it, or the
instant that it leads to, is out of reach, a window starts at the earliest instant and a date in a
search is none.
-/

namespace Newsfeed.Machine

open Newsfeed.Text Newsfeed.Time

/-- An amount multiplied by one factor after the other. -/
def scale? (n : Int) (factors : List Int) : Option Int :=
  factors.foldlM (fun product f => fit? (product * f)) n

/-- The seconds of an amount, if the span is not too long. -/
def seconds? (factors : List Int) (n : Int) : Option Int :=
  (scale? n factors).filter fun s => decide (-maxSpan ≤ s) && decide (s ≤ maxSpan)

/-- The instant a number of seconds later or earlier, if it is in range. -/
def shift (t : Instant) (n : Int) : Except Abort (Option Instant) := do
  let leaves := t.isLeapSecond && n != 0
  let start ← fit (if leaves ∧ n < 0 then t.seconds + 1 else t.seconds)
  let seconds ← fit (start + n)
  let nanos := if leaves then t.nanos - 1000000000 else t.nanos
  return if Instant.inRange seconds then some ⟨seconds, nanos⟩ else none

def shiftBack (t : Instant) (n : Int) : Except Abort (Option Instant) :=
  (fit (-n)).bind (shift t)

/-- The instant an amount of a unit before `now`; the earliest one where it cannot be reached. -/
def before (now : Instant) (factors : List Int) (n : Int) : Except Abort Instant :=
  match seconds? factors n with
  | none => .ok Instant.earliest
  | some s => (shiftBack now s).map fun t? => t?.getD Instant.earliest

def hoursBefore (now : Instant) (hours : Int) : Except Abort Instant := before now [3600] hours

def minutesBefore (now : Instant) (minutes : Int) : Except Abort Instant := before now [60] minutes

/-- What an amount of a unit is multiplied by: months and years are made into days first. -/
def unitFactors? (cs : List Char) : Option (List Int) :=
  let word := String.ofList (cs.reverse.dropWhile (· = 's')).reverse
  if word = "min" ∨ word = "minute" then some [60]
  else if word = "hour" ∨ word = "h" then some [3600]
  else if word = "day" ∨ word = "d" then some [86400]
  else if word = "week" ∨ word = "w" then some [604800]
  else if word = "month" then some [30, 86400]
  else if word = "year" ∨ word = "y" then some [365, 86400]
  else none

/-- An unsigned amount with its unit, in seconds. -/
def readSpan? (cs : List Char) : Option Int := do
  let cs := trimStart cs
  let ds := cs.takeWhile Char.isDigit
  let amount ← readWord? ds
  let factors ← unitFactors? (trimChars (cs.drop ds.length))
  seconds? factors amount

/-- The instant a span of time after `now`. -/
def onward (now : Instant) (cs : List Char) : Except Abort (Option Instant) :=
  match readSpan? cs with
  | some s => shift now s
  | none => .ok none

/-- The instant a span of time before `now`. -/
def back (now : Instant) (cs : List Char) : Except Abort (Option Instant) :=
  match readSpan? cs with
  | some s => shiftBack now s
  | none => .ok none

/-- The instant that is a span of time away from `now`: back with a minus sign or with `ago`, which
takes no sign. -/
def spanAway (now : Instant) (cs : List Char) : Except Abort (Option Instant) :=
  match stripAgo? cs with
  | some ('+' :: _) => .ok none
  | some ('-' :: _) => .ok none
  | some rest => back now rest
  | none => match cs with
    | '-' :: rest => back now rest
    | '+' :: rest => onward now rest
    | rest => onward now rest

/-- A day of the calendar. With any other there is no going on. -/
def dayOfCalendar (n : Int) : Except Abort Int :=
  if yearStart firstYear ≤ n ∧ n < yearStart (lastYear + 1) then .ok n else .error (.offCalendar n)

/-- The day that a clock shows. -/
def dayAt (c : Clock) (t : Instant) : Except Abort Int :=
  (fit (t.seconds + c.offsetAt t.seconds)).bind fun shown => dayOfCalendar (shown / daySeconds)

/-- The instant at which a local time would be shown with an offset, if the clock does show it
there. -/
def instantFor (c : Clock) (shown offset : Int) : Except Abort (Option Int) :=
  (fit (shown - offset)).bind fun t =>
    if Instant.inRange t then
      (fit (t + c.offsetAt t)).map fun s => if s = shown then some t else none
    else .ok none

def firstInstant (c : Clock) (shown : Int) : Except Abort (Option Int) :=
  (c.offsets.mapM (instantFor c shown)).map fun ts => (ts.filterMap id).min?

/-- The instant at which a local day starts, an hour late where the clock skips midnight. -/
def dayStart (c : Clock) (day : Int) : Except Abort (Option Instant) := do
  let midnight ← fit (day * daySeconds)
  match ← firstInstant c midnight with
  | some t => return some ⟨t, 0⟩
  | none => return (← firstInstant c (← fit (midnight + 3600))).map fun t => ⟨t, 0⟩

/-- The instant at which the day before today starts, or the day after. -/
def neighbourStart (c : Clock) (day : Int) : Except Abort (Option Instant) :=
  ((fit day).bind dayOfCalendar).bind (dayStart c)

/-- The instant that a date in a search denotes. The local day of now is looked up whatever the
text is. -/
def searchInstant (c : Clock) (text : String) (now : Instant) : Except Abort (Option Instant) :=
  let cs := lowerChars (trimChars text.toList)
  (dayAt c now).bind fun today =>
    if cs = [] then .ok none
    else if cs = "now".toList then .ok (some now)
    else if cs = "today".toList then dayStart c today
    else if cs = "yesterday".toList then neighbourStart c (today - 1)
    else if cs = "tomorrow".toList then neighbourStart c (today + 1)
    else match readDay? cs with
      | some day => dayStart c day
      | none => spanAway now cs

/-- The UTC day that a date in a search stands for, as `YYYY-MM-DD`. -/
def searchDay (c : Clock) (text : String) (now : Instant) : Except Abort (Option String) :=
  (searchInstant c text now).map fun t? => t?.map fun t => t.date.text

end Newsfeed.Machine
