import Newsfeed.Text.Blank
import Newsfeed.Text.Decimal
import Newsfeed.Time.Instant

/-!
Time zones: a fixed offset from UTC, or a region with its clock changes. Offsets are seconds east
of UTC. The clock of a zone turns an instant into local time directly and a local time into the
earliest instant that shows it.
-/

namespace Newsfeed.Time

open Newsfeed.Text

inductive Region where
  | berlin | newYork | havana | santiago | saoPaulo | apia | kolkata | tokyo | kathmandu
  | etcUtc | est | zulu
  deriving DecidableEq, Repr

namespace Region

def all : List Region :=
  [berlin, newYork, havana, santiago, saoPaulo, apia, kolkata, tokyo, kathmandu, etcUtc, est, zulu]

def name : Region → String
  | berlin => "Europe/Berlin"
  | newYork => "America/New_York"
  | havana => "America/Havana"
  | santiago => "America/Santiago"
  | saoPaulo => "America/Sao_Paulo"
  | apia => "Pacific/Apia"
  | kolkata => "Asia/Kolkata"
  | tokyo => "Asia/Tokyo"
  | kathmandu => "Asia/Kathmandu"
  | etcUtc => "Etc/UTC"
  | est => "EST"
  | zulu => "Zulu"

/-- Names are case sensitive. -/
def ofName? (s : String) : Option Region := all.find? fun r => r.name == s

end Region

/-- An hour of a day in UTC, as seconds since 1970. -/
def utcHour (y : Int) (m d h : Nat) : Int := (Date.mk y m d).toDay * daySeconds + h * 3600

/-- The first Sunday on or after a day of a month, at an hour in UTC. -/
def sundayFrom (y : Int) (m d h : Nat) : Int :=
  let day := (Date.mk y m d).toDay
  (day + (6 - weekday day)) * daySeconds + h * 3600

/-- The year in UTC of a count of seconds. -/
def yearOfSeconds (t : Int) : Int := yearOfDay (t / daySeconds)

namespace Region

/-- An offset of whole hours. -/
def hourOffset (hours : Int) : Int := hours * 3600

/-- The offset in force at an instant. -/
def offsetAt (r : Region) (t : Int) : Int :=
  let y := yearOfSeconds t
  let between (a b : Int) : Bool := decide (a ≤ t) && decide (t < b)
  match r with
  | berlin => hourOffset (if between (sundayFrom y 3 25 1) (sundayFrom y 10 25 1) then 2 else 1)
  | newYork => hourOffset (if between (sundayFrom y 3 8 7) (sundayFrom y 11 1 6) then -4 else -5)
  | havana => hourOffset (if between (sundayFrom y 3 8 5) (sundayFrom y 11 1 5) then -4 else -5)
  | santiago => hourOffset (if between (sundayFrom y 4 2 3) (sundayFrom y 9 2 4) then -4 else -3)
  | saoPaulo => hourOffset (if between (utcHour 2018 11 4 3) (utcHour 2019 2 17 2) then -2 else -3)
  | apia =>
    hourOffset (if t < utcHour 2011 12 30 10 then -10
      else if t < utcHour 2012 3 31 14 then 14 else 13)
  | kolkata => 19800
  | tokyo => hourOffset 9
  | kathmandu => 20700
  | etcUtc => 0
  | est => hourOffset (-5)
  | zulu => 0

/-- The offsets that a region ever has. -/
def offsets : Region → List Int
  | berlin => [3600, 7200]
  | newYork => [-18000, -14400]
  | havana => [-18000, -14400]
  | santiago => [-14400, -10800]
  | saoPaulo => [-10800, -7200]
  | apia => [-36000, 50400, 46800]
  | kolkata => [19800]
  | tokyo => [32400]
  | kathmandu => [20700]
  | etcUtc => [0]
  | est => [-18000]
  | zulu => [0]

theorem offsetAt_mem (r : Region) (t : Int) : r.offsetAt t ∈ r.offsets := by
  cases r with
  | berlin | newYork | havana | santiago | saoPaulo =>
    simp only [offsetAt, offsets]
    split <;> decide
  | apia =>
    simp only [offsetAt, offsets]
    split
    · decide
    · split <;> decide
  | _ => exact List.mem_singleton_self _

end Region

/-- A clock of local time: the offset from UTC that is in force at each instant, out of a list of
those that ever are. -/
structure Clock where
  offsetAt : Int → Int
  offsets : List Int
  listed : ∀ t, offsetAt t ∈ offsets

namespace Clock

/-- The local time at an instant. -/
def shown (c : Clock) (t : Int) : Int := t + c.offsetAt t

/-- The day that the clock's calendar shows at an instant. -/
def dayAt (c : Clock) (t : Instant) : Int := c.shown t.seconds / daySeconds

/-- The instants at which the clock shows a local time: none when it is skipped, two when the clock
was set back over it. -/
def instantsAt (c : Clock) (shown : Int) : List Int :=
  (c.offsets.map fun o => shown - o).filter fun t => Instant.inRange t && c.shown t == shown

def firstInstantAt? (c : Clock) (shown : Int) : Option Int := (c.instantsAt shown).min?

/-- Where a local day starts: at 00:00, or at 01:00 when the clock skips 00:00. -/
def dayStart? (c : Clock) (day : Int) : Option Int :=
  (c.firstInstantAt? (day * daySeconds)).orElse fun _ =>
    c.firstInstantAt? (day * daySeconds + 3600)

end Clock

inductive Zone where
  | fixed (offset : Int)
  | named (region : Region)
  deriving DecidableEq, Repr

namespace Zone

def utc : Zone := .fixed 0

def clock : Zone → Clock
  | .fixed o => ⟨fun _ => o, [o], fun _ => List.mem_singleton_self o⟩
  | .named r => ⟨r.offsetAt, r.offsets, r.offsetAt_mem⟩

end Zone

/-- Hours of at most 14 and minutes of at most 59, from one or two digits of hours or two of each;
in seconds. -/
def hoursMinutes? (ds : List Char) : Option Int :=
  if !ds.all Char.isDigit then none
  else
    let hm? : Option (Nat × Nat) :=
      if ds.length = 1 ∨ ds.length = 2 then some (digitsValue ds, 0)
      else if ds.length = 4 then some (digitsValue (ds.take 2), digitsValue (ds.drop 2))
      else none
    hm?.bind fun (h, m) => if h ≤ 14 ∧ m ≤ 59 then some (Int.ofNat (h * 3600 + m * 60)) else none

/-- An offset is `UTC` or `GMT` in any case, `Z`, or a sign with hours and minutes, in which
colons are passed over. Blanks around it are too. -/
def readOffset? (s : String) : Option Int :=
  let cs := trimChars s.toList
  if cs.map Char.toLower = "utc".toList ∨ cs.map Char.toLower = "gmt".toList ∨ cs = ['Z'] then
    some 0
  else match cs with
    | '+' :: rest => hoursMinutes? (rest.filter (· ≠ ':'))
    | '-' :: rest => (hoursMinutes? (rest.filter (· ≠ ':'))).map (- ·)
    | _ => none

/-- A zone is written as an offset or as the name of a region. -/
def Zone.read? (s : String) : Option Zone :=
  match readOffset? s with
  | some o => some (.fixed o)
  | none => (Region.ofName? (trim s)).map .named

end Newsfeed.Time
