import Newsfeed.Text.Decimal
import Newsfeed.Time.Instant

/-!
Dates and times written field by field. A pattern lists the fields in order with what stands
between them; reading one takes the remaining text and gives what remains after it.
-/

namespace Newsfeed.Time

open Newsfeed.Text

inductive Item where
  | year | month | day | hour | minute | second
  | char (c : Char)
  | blanks
  deriving DecidableEq, Repr

abbrev Pattern := List Item

structure Fields where
  date : Date
  hour : Nat
  minute : Nat
  second : Nat
  deriving DecidableEq, Repr

/-- Midnight of a day that does not exist: where reading a pattern starts. -/
def Fields.blank : Fields := ⟨⟨0, 0, 0⟩, 0, 0, 0⟩

/-- A number of at most `width` digits, and of any number of them without a width. -/
def takeDigits (width : Option Nat) (cs : List Char) : Option (Nat × List Char) :=
  let ds := (match width with | some w => cs.take w | none => cs).takeWhile Char.isDigit
  if ds = [] then none else some (digitsValue ds, cs.drop ds.length)

/-- A year is one to four digits, or a sign and any number of digits. -/
def takeYear : List Char → Option (Int × List Char)
  | '-' :: ds => (takeDigits none ds).map fun (n, rest) => (-Int.ofNat n, rest)
  | '+' :: ds => (takeDigits none ds).map fun (n, rest) => (Int.ofNat n, rest)
  | ds => (takeDigits (some 4) ds).map fun (n, rest) => (Int.ofNat n, rest)

def takeChar (c : Char) : List Char → Option (List Char)
  | [] => none
  | d :: rest => if d = c then some rest else none

/-- Reads one item. Blanks in front of a number are skipped; every number but the year has one
or two digits. -/
def Item.take (f : Fields) (cs : List Char) : Item → Option (Fields × List Char)
  | .year => (takeYear (trimStart cs)).map fun (n, r) => ({ f with date.year := n }, r)
  | .month => (two cs).map fun (n, r) => ({ f with date.month := n }, r)
  | .day => (two cs).map fun (n, r) => ({ f with date.day := n }, r)
  | .hour => (two cs).map fun (n, r) => ({ f with hour := n }, r)
  | .minute => (two cs).map fun (n, r) => ({ f with minute := n }, r)
  | .second => (two cs).map fun (n, r) => ({ f with second := n }, r)
  | .char c => (takeChar c cs).map fun r => (f, r)
  | .blanks => some (f, trimStart cs)
where
  two (cs : List Char) : Option (Nat × List Char) := takeDigits (some 2) (trimStart cs)

def Pattern.take : Pattern → Fields → List Char → Option (Fields × List Char)
  | [], f, cs => some (f, cs)
  | i :: is, f, cs => (i.take f cs).bind fun (f, cs) => Pattern.take is f cs

/-- Reads a whole text by a pattern. -/
def Pattern.read? (p : Pattern) (cs : List Char) : Option Fields :=
  match p.take .blank cs with
  | some (f, []) => some f
  | _ => none

/-- The date exists and so does the time of day; a second may be 60. -/
def Fields.isValid (f : Fields) : Bool :=
  f.date.isValid && decide (f.hour ≤ 23) && decide (f.minute ≤ 59) && decide (f.second ≤ 60)

/-- The instant that the fields name in UTC. Second 60 is the leap second after 59. -/
def Fields.instant (f : Fields) (nanos : Nat) : Instant :=
  let minute := f.date.toDay * daySeconds + f.hour * 3600 + f.minute * 60
  if f.second = 60 then ⟨minute + 59, nanos + 1000000000⟩ else ⟨minute + f.second, nanos⟩

/-- A year is written with four digits, one outside 0 to 9999 with a sign and at least four. -/
def yearText (y : Int) : String :=
  if 0 ≤ y ∧ y ≤ 9999 then padded 4 y.toNat
  else (if y < 0 then "-" else "+") ++ padded 4 y.natAbs

def Date.text (d : Date) : String :=
  yearText d.year ++ "-" ++ padded 2 d.month ++ "-" ++ padded 2 d.day

/-- Hour, minute and second with colons; a leap second is second 60. -/
def Instant.clockText (t : Instant) : String :=
  let s := t.secondOfDay
  padded 2 (s / 3600) ++ ":" ++ padded 2 (s / 60 % 60) ++ ":" ++
    padded 2 (s % 60 + if t.isLeapSecond then 1 else 0)

end Newsfeed.Time
