import Newsfeed.Time.StoredText

/-!
Times as RFC 3339 text. Written times are in UTC; read times may have any offset, blanks between
their parts, a blank instead of the `T`, and `UTC` instead of an offset.
-/

namespace Newsfeed.Time

open Newsfeed.Text

/-- The fraction has three, six or nine digits, the fewest that are exact, and is left out
when zero. -/
def fractionText (nanos : Nat) : String :=
  if nanos = 0 then ""
  else if nanos % 1000000 = 0 then "." ++ padded 3 (nanos / 1000000)
  else if nanos % 1000 = 0 then "." ++ padded 6 (nanos / 1000)
  else "." ++ padded 9 nanos

def Instant.rfc3339 (t : Instant) : String :=
  t.date.text ++ "T" ++ t.clockText ++ fractionText (t.nanos % 1000000000) ++ "Z"

def datePattern : Pattern :=
  [.year, .blanks, .char '-', .month, .blanks, .char '-', .day]

def clockPattern : Pattern :=
  [.hour, .blanks, .char ':', .minute, .blanks, .char ':', .second]

/-- Nanoseconds from an optional point and its digits; digits after the ninth are dropped. -/
def takeFraction : List Char → Option (Nat × List Char)
  | '.' :: cs =>
    let ds := cs.takeWhile Char.isDigit
    let nine := ds.take 9
    if ds = [] then none
    else some (digitsValue nine * Nat.pow 10 (9 - nine.length), cs.drop ds.length)
  | cs => some (0, cs)

def takeSeparator : List Char → Option (List Char)
  | c :: cs => if c = 'T' ∨ c = 't' ∨ c = ' ' then some cs else none
  | [] => none

/-- Two digits, without blanks in front. -/
def takeTwoDigits : List Char → Option (Nat × List Char)
  | a :: b :: rest => if a.isDigit ∧ b.isDigit then some (digitsValue [a, b], rest) else none
  | _ => none

/-- Two digits of hours and two of minutes, apart by colons or blanks or by nothing; in
seconds. -/
def takeHoursMinutes (cs : List Char) : Option (Int × List Char) := do
  let (h, cs) ← takeTwoDigits cs
  let (m, cs) ← takeTwoDigits (cs.dropWhile fun c => c = ':' || isBlank c)
  if m ≤ 59 then some (Int.ofNat (h * 3600 + m * 60), cs) else none

def takeOffset : List Char → Option (Int × List Char)
  | 'Z' :: cs => some (0, cs)
  | 'z' :: cs => some (0, cs)
  | '+' :: cs => takeHoursMinutes cs
  | '-' :: cs => (takeHoursMinutes cs).map fun (o, rest) => (-o, rest)
  | '\u2212' :: cs => (takeHoursMinutes cs).map fun (o, rest) => (-o, rest)
  | u :: t :: c :: cs =>
    if [u, t, c].map Char.toLower = ['u', 't', 'c'] then some (0, cs) else none
  | _ => none

/-- The instant an RFC 3339 text names, if its date and clock exist, its offset is less than a day
and the time in UTC is in range. -/
def Instant.ofRfc3339? (s : String) : Option Instant := do
  let (f, cs) ← datePattern.take .blank s.toList
  let cs ← takeSeparator cs
  let (f, cs) ← clockPattern.take f cs
  let (nanos, cs) ← takeFraction cs
  let (offset, cs) ← takeOffset (trimStart cs)
  let shown := f.instant nanos
  let utc : Instant := ⟨shown.seconds - offset, shown.nanos⟩
  if f.isValid ∧ -daySeconds < offset ∧ offset < daySeconds ∧ trimStart cs = [] ∧
      Instant.inRange utc.seconds then
    some utc
  else none

end Newsfeed.Time
