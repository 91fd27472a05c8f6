import Newsfeed.Text.Decimal

/-!
Whole numbers on a machine, where they have 64 bits. Where a result does not fit, a checked
operation has none, and with any other the program ends.
-/

namespace Newsfeed.Machine

open Newsfeed.Text

/-- What ends the program. -/
inductive Abort where
  /-- A result that does not fit. -/
  | overflow (result : Int)
  /-- A range with its ends the wrong way round. -/
  | inverted (low high : Int)
  /-- A day that the calendar does not have. -/
  | offCalendar (day : Int)
  deriving DecidableEq, Repr

/-- The result of an operation that is not checked. -/
def fit (n : Int) : Except Abort Int := if isInt64 n then .ok n else .error (.overflow n)

/-- The result of a checked one. -/
def fit? (n : Int) : Option Int := if isInt64 n then some n else none

/-- A number without its sign. That of the least number does not fit. -/
def size (n : Int) : Except Abort Int := fit n.natAbs

/-- The number of a range that is nearest to `n`. -/
def clampTo (low high n : Int) : Except Abort Int :=
  if high < low then .error (.inverted low high) else fit (max low (min n high))

/-- One digit more, away from zero. -/
def pushDigit? (negative : Bool) (n : Int) (d : Char) : Option Int :=
  (fit? (10 * n)).bind fun tens =>
    fit? (if negative then tens - digitValue d else tens + digitValue d)

def readDigits? (negative : Bool) (ds : List Char) : Option Int :=
  if ds ≠ [] ∧ ds.all Char.isDigit then ds.foldlM (pushDigit? negative) 0 else none

/-- Reads a number digit by digit, with at most one sign in front. -/
def readWord? : List Char → Option Int
  | '+' :: ds => readDigits? false ds
  | '-' :: ds => readDigits? true ds
  | ds => readDigits? false ds

end Newsfeed.Machine
