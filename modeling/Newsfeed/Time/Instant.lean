import Newsfeed.Time.Calendar

namespace Newsfeed.Time

/-- A point in time: whole seconds since 1970-01-01T00:00:00Z and the nanoseconds after them.
A leap second has the count of the second before it and nanoseconds from one billion on. -/
structure Instant where
  seconds : Int
  nanos : Nat
  deriving DecidableEq, Repr

def daySeconds : Int := 86400

namespace Instant

/-- The earliest instant there is. -/
def earliest : Instant := ⟨yearStart firstYear * daySeconds, 0⟩

/-- Whether a count of seconds lies within the years that have dates. -/
def inRange (seconds : Int) : Bool :=
  decide (yearStart firstYear * daySeconds ≤ seconds) &&
    decide (seconds < yearStart (lastYear + 1) * daySeconds)

def isLeapSecond (t : Instant) : Bool := decide (1000000000 ≤ t.nanos)

def lt (a b : Instant) : Bool :=
  decide (a.seconds < b.seconds) || (a.seconds == b.seconds && decide (a.nanos < b.nanos))

/-- The day in UTC. -/
def day (t : Instant) : Int := t.seconds / daySeconds

def date (t : Instant) : Date := Date.ofDay t.day

def secondOfDay (t : Instant) : Nat := (t.seconds % daySeconds).toNat

/-- The instant without its fraction of a second. -/
def truncate (t : Instant) : Instant :=
  ⟨t.seconds, if t.isLeapSecond then 1000000000 else 0⟩

/-- The instant a number of seconds later or earlier, if it is in range. Going forward a leap
second counts as the second before it, going back as the second after it. -/
def shift? (t : Instant) (n : Int) : Option Instant :=
  let start : Instant :=
    if t.isLeapSecond && n != 0 then
      ⟨if 0 < n then t.seconds else t.seconds + 1, t.nanos - 1000000000⟩
    else t
  if inRange (start.seconds + n) then some ⟨start.seconds + n, start.nanos⟩ else none

end Instant

/-- The longest span of time in seconds: what fits into 64 bits as milliseconds. -/
def maxSpan : Int := 9223372036854775

/-- The seconds of `n` units, if the span is not too long. -/
def span? (unit n : Int) : Option Int :=
  if -maxSpan ≤ unit * n ∧ unit * n ≤ maxSpan then some (unit * n) else none

/-- The instant `n` units before `now`; the earliest one where it cannot be reached. -/
def before (now : Instant) (unit n : Int) : Instant :=
  ((span? unit n).bind fun s => now.shift? (-s)).getD Instant.earliest

def hoursBefore (now : Instant) (hours : Int) : Instant := before now 3600 hours

def minutesBefore (now : Instant) (minutes : Int) : Instant := before now 60 minutes

end Newsfeed.Time
