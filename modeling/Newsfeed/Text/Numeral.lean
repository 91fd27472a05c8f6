import Newsfeed.Text.Decimal

/-!
Numerals with a point or an exponent, and the numbers of 53 binary digits that stand for them. A
numeral is rounded once, to the nearest such number and to the even one of two that are as near.
-/

namespace Newsfeed.Text

/-- The number `digits * 10 ^ power`, or its opposite. -/
structure Numeral where
  negative : Bool
  digits : Nat
  power : Int
  deriving DecidableEq, Repr

/-- The number `significand * 2 ^ exponent`. -/
structure Binary where
  significand : Nat
  exponent : Int
  deriving DecidableEq, Repr

/-- The whole number nearest to a fraction. -/
def nearestWhole (top bottom : Nat) : Nat :=
  let q := top / bottom
  let rest := 2 * (top % bottom)
  if rest < bottom ∨ (rest = bottom ∧ q % 2 = 0) then q else q + 1

namespace Binary

/-- A fraction in units of `2 ^ e`. -/
def scaled (top bottom : Nat) (e : Int) : Nat × Nat :=
  (top * Nat.pow 2 (-e).toNat, bottom * Nat.pow 2 e.toNat)

/-- The unit in which the whole part of a fraction has 53 digits, or less for the smallest. -/
def unit (top bottom : Nat) : Int :=
  let e := (top.log2 : Int) - bottom.log2 - 53
  let (a, b) := scaled top bottom e
  max (if a / b < Nat.pow 2 53 then e else e + 1) (-1074)

/-- The number nearest to a fraction. -/
def nearest (top bottom : Nat) : Binary :=
  let e := unit top bottom
  let (a, b) := scaled top bottom e
  ⟨nearestWhole a b, e⟩

/-- The number is within the range of 11 binary digits of exponent. -/
def isFinite (b : Binary) : Bool :=
  b.significand * Nat.pow 2 b.exponent.toNat < Nat.pow 2 1024

/-- A number, or its opposite, in units of `2 ^ e`, where `e` is not above its exponent. -/
def count (negative : Bool) (e : Int) (b : Binary) : Int :=
  let size : Int := b.significand * Nat.pow 2 (b.exponent - e).toNat
  if negative then -size else size

/-- The order of a number, or of its opposite, and a whole one. -/
def compareWhole (n : Int) (negative : Bool) (b : Binary) : Ordering :=
  let size : Int := b.significand * Nat.pow 2 b.exponent.toNat
  compare (n * Nat.pow 2 (-b.exponent).toNat) (if negative then -size else size)

end Binary

namespace Numeral

/-- The size of a numeral as the nearest number; nothing if that is out of range. What is far too
small or far too great is not computed. -/
def nearest? (x : Numeral) : Option Binary :=
  if x.digits = 0 ∨ (x.digits.log2 : Int) + 3 * x.power < -1100 ∧ x.power < 0 then some ⟨0, 0⟩
  else if 400 < x.power then none
  else
    (some (.nearest (x.digits * Nat.pow 10 x.power.toNat) (Nat.pow 10 (-x.power).toNat))).filter
      Binary.isFinite

/-- The order of a whole number and a numeral as rounded. -/
def compareWhole (n : Int) (x : Numeral) : Ordering :=
  match x.nearest? with
  | some b => b.compareWhole n x.negative
  | none => if x.negative then .gt else .lt

/-- The order of two numerals as rounded. -/
def order (x y : Numeral) : Ordering :=
  match x.nearest?, y.nearest? with
  | some a, some b =>
    let unit := min a.exponent b.exponent
    compare (a.count x.negative unit) (b.count y.negative unit)
  | some _, none => if y.negative then .gt else .lt
  | none, some _ => if x.negative then .lt else .gt
  | none, none => compare y.negative x.negative

/-- The whole number of 64 bits that a numeral is rounded to. -/
def whole? (x : Numeral) : Option Int :=
  x.nearest?.bind fun b =>
    let top := b.significand * Nat.pow 2 b.exponent.toNat
    let bottom := Nat.pow 2 (-b.exponent).toNat
    let n : Int := if x.negative then -(top / bottom : Nat) else (top / bottom : Nat)
    if top % bottom = 0 ∧ isInt64 n then some n else none

/-- A sign, if there is one. -/
def takeSign : List Char → Bool × List Char
  | '-' :: cs => (true, cs)
  | '+' :: cs => (false, cs)
  | cs => (false, cs)

/-- What is written behind `e`; nothing is written where there is no `e`. -/
def exponent? : List Char → Option Int
  | [] => some 0
  | c :: cs => if c = 'e' ∨ c = 'E' then readInt? cs else none

/-- Digits with a point in front of, among or behind them, or none; and an exponent, or none. -/
def ofChars? (cs : List Char) : Option Numeral :=
  let (negative, cs) := takeSign cs
  let whole := cs.takeWhile Char.isDigit
  let rest := cs.drop whole.length
  let (places, tail) := match rest with
    | '.' :: rest => (rest.takeWhile Char.isDigit, rest.dropWhile Char.isDigit)
    | _ => ([], rest)
  let digits := whole ++ places
  if digits = [] then none
  else (exponent? tail).map fun e => ⟨negative, digitsValue digits, e - places.length⟩

/-- The digits up to the nineteenth or twentieth, where one more might not fit 64 bits. -/
def cut (digits : Nat) (power : Int) : Nat × Int :=
  if 1844674407370955160 ≤ digits / 10 then cut (digits / 10) (power + 1) else (digits, power)
termination_by digits
decreasing_by omega

/-- The numeral without the digits that are not looked at. -/
def shortened (x : Numeral) : Numeral :=
  let (digits, power) := cut x.digits x.power
  { x with digits, power }

end Numeral

end Newsfeed.Text
