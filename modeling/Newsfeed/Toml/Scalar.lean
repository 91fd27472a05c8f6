import Newsfeed.Text.Numeral
import Newsfeed.Time.Calendar
import Newsfeed.Toml.Value

/-!
The values of TOML that are written without quotes: numbers, switches, dates and times.
-/

namespace Newsfeed.Toml

open Newsfeed.Text

/-- Digits with single underscores between them, which are dropped. -/
def digitRun? (isDigit : Char → Bool) : List Char → Option (List Char)
  | [] => none
  | [c] => if isDigit c then some [c] else none
  | c :: '_' :: rest => if isDigit c then (digitRun? isDigit rest).map (c :: ·) else none
  | c :: rest => if isDigit c then (digitRun? isDigit rest).map (c :: ·) else none

def hexValue (c : Char) : Nat :=
  if c.isDigit then digitValue c
  else if 'a' ≤ c ∧ c ≤ 'f' then c.toNat - 'a'.toNat + 10
  else c.toNat - 'A'.toNat + 10

def isHex (c : Char) : Bool := c.isDigit || ('a' ≤ c && c ≤ 'f') || ('A' ≤ c && c ≤ 'F')

def radixValue (radix : Nat) (ds : List Char) : Nat :=
  ds.foldl (fun n d => radix * n + hexValue d) 0

/-- Decimal digits without a zero in front of others. -/
def plainDigits? (cs : List Char) : Option (List Char) :=
  match digitRun? Char.isDigit cs with
  | some ['0'] => some ['0']
  | some ('0' :: _) => none
  | ds => ds

def integer? : List Char → Option Int
  | '0' :: 'x' :: cs => (digitRun? isHex cs).map fun ds => radixValue 16 ds
  | '0' :: 'o' :: cs => (digitRun? (fun c => '0' ≤ c && c ≤ '7') cs).map fun ds => radixValue 8 ds
  | '0' :: 'b' :: cs => (digitRun? (fun c => c == '0' || c == '1') cs).map fun ds => radixValue 2 ds
  | '-' :: cs => (plainDigits? cs).map fun ds => -(digitsValue ds : Int)
  | '+' :: cs => (plainDigits? cs).map fun ds => digitsValue ds
  | cs => (plainDigits? cs).map fun ds => digitsValue ds

def unsigned : List Char → List Char
  | '+' :: cs => cs
  | '-' :: cs => cs
  | cs => cs

/-- An exponent: `e`, a sign or none, and digits. -/
def isExponent : List Char → Bool
  | 'e' :: cs => (digitRun? Char.isDigit (unsigned cs)).isSome
  | 'E' :: cs => (digitRun? Char.isDigit (unsigned cs)).isSome
  | _ => false

def isE (c : Char) : Bool := c == 'e' || c == 'E'

/-- An infinity or no number. -/
def isNoNumber (cs : List Char) : Bool :=
  unsigned cs == "inf".toList || unsigned cs == "nan".toList

/-- A whole number with a fraction, an exponent or both. -/
def isFloat (cs : List Char) : Bool :=
  let cs := unsigned cs
  let whole := cs.takeWhile fun c => c != '.' && !isE c
  let isWhole := (plainDigits? whole).isSome
  match cs.drop whole.length with
  | '.' :: rest =>
    let places := rest.takeWhile fun c => !isE c
    let tail := rest.drop places.length
    isWhole && (digitRun? Char.isDigit places).isSome && (tail.isEmpty || isExponent tail)
  | [] => false
  | tail => isWhole && isExponent tail

/-- The number is not rounded to an infinity. -/
def fitsFloat (cs : List Char) : Bool :=
  ((Numeral.ofChars? (cs.filter (· != '_'))).bind Numeral.nearest?).isSome

/-- A number of so many digits. -/
def fixedDigits? (width : Nat) (cs : List Char) : Option (Nat × List Char) :=
  let ds := cs.take width
  if ds.length = width ∧ ds.all Char.isDigit then some (digitsValue ds, cs.drop width) else none

def afterChar? (c : Char) : List Char → Option (List Char)
  | [] => none
  | d :: rest => if c = d then some rest else none

/-- A date at the front: the rest behind it. -/
def afterDate? (cs : List Char) : Option (List Char) := do
  let (y, cs) ← fixedDigits? 4 cs
  let (m, cs) ← fixedDigits? 2 (← afterChar? '-' cs)
  let (d, cs) ← fixedDigits? 2 (← afterChar? '-' cs)
  if Time.Date.isValid ⟨y, m, d⟩ then some cs else none

/-- A fraction of a second, if there is one. -/
def afterFraction? : List Char → Option (List Char)
  | '.' :: cs =>
    if (cs.takeWhile Char.isDigit).isEmpty then none else some (cs.dropWhile Char.isDigit)
  | cs => some cs

/-- Seconds with their fraction, if there are any. -/
def afterSeconds? : List Char → Option (List Char)
  | ':' :: cs => do
    let (s, cs) ← fixedDigits? 2 cs
    if s ≤ 60 then afterFraction? cs else none
  | cs => some cs

def afterClock? (cs : List Char) : Option (List Char) := do
  let (h, cs) ← fixedDigits? 2 cs
  let (m, cs) ← fixedDigits? 2 (← afterChar? ':' cs)
  if h ≤ 23 ∧ m ≤ 59 then afterSeconds? cs else none

def isOffset : List Char → Bool
  | [] => true
  | ['Z'] => true
  | ['z'] => true
  | sign :: cs =>
    (sign == '+' || sign == '-') && (do
      let (h, cs) ← fixedDigits? 2 cs
      let (m, cs) ← fixedDigits? 2 (← afterChar? ':' cs)
      if h ≤ 23 ∧ m ≤ 59 ∧ cs = [] then some () else none).isSome

def isMoment (cs : List Char) : Bool :=
  match afterDate? cs with
  | some [] => true
  | some (c :: rest) =>
    (c == 'T' || c == 't' || c == ' ') &&
      match afterClock? rest with
      | some tail => isOffset tail
      | none => false
  | none => afterClock? cs == some []

/-- Whole numbers fit 128 bits, with or without a sign. -/
def fitsWide (n : Int) : Bool :=
  decide (-(Nat.pow 2 127 : Int) ≤ n) && decide (n < Nat.pow 2 128)

/-- The value that an unquoted word writes. -/
def scalar? (cs : List Char) : Option Value :=
  if cs = "true".toList then some (.bool true)
  else if cs = "false".toList then some (.bool false)
  else match integer? cs with
    | some n => if fitsWide n then some (.int n) else none
    | none =>
      if isNoNumber cs then some .float
      else if isFloat cs then if fitsFloat cs then some .float else none
      else if isMoment cs then some .moment
      else none

def endsScalar (c : Char) : Bool := [',', ']', '}', '#', ' ', '\t', '\n', '\r'].contains c

/-- The word at the front. A date and a time may have one space between them. -/
def takeScalar : Reader Value := fun cs =>
  let word := cs.takeWhile fun c => !endsScalar c
  let rest := cs.drop word.length
  let (word, rest) := match rest with
    | ' ' :: d :: _ =>
      if d.isDigit && (afterDate? word) == some [] then
        let clock := (rest.drop 1).takeWhile fun c => !endsScalar c
        (word ++ ' ' :: clock, rest.drop (clock.length + 1))
      else (word, rest)
    | _ => (word, rest)
  (scalar? word).map fun v => (v, rest)

end Newsfeed.Toml
