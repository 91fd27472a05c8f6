import Newsfeed.Text.Blank

/-!
Decimal numbers as text. Reading takes ASCII digits only and refuses what does not fit 64 bits;
writing pads with zeros on the left.
-/

namespace Newsfeed.Text

def minInt64 : Int := -9223372036854775808

def maxInt64 : Int := 9223372036854775807

def isInt64 (n : Int) : Bool := decide (minInt64 ≤ n) && decide (n ≤ maxInt64)

def digitValue (c : Char) : Nat := c.toNat - '0'.toNat

/-- The number a run of digits writes, most significant digit first. -/
def digitsValue (ds : List Char) : Nat := ds.foldl (fun n d => 10 * n + digitValue d) 0

/-- A number is a non-empty run of digits. -/
def readNat? (cs : List Char) : Option Nat :=
  if cs ≠ [] ∧ cs.all Char.isDigit then some (digitsValue cs) else none

/-- A number with at most one sign in front. -/
def readInt? : List Char → Option Int
  | '+' :: ds => (readNat? ds).map Int.ofNat
  | '-' :: ds => (readNat? ds).map fun n => -Int.ofNat n
  | ds => (readNat? ds).map Int.ofNat

def readInt64? (cs : List Char) : Option Int := (readInt? cs).filter isInt64

/-- An unsigned 64-bit number, with at most a plus sign in front. -/
def readUInt64? : List Char → Option Nat
  | '+' :: ds => (readNat? ds).filter (· < UInt64.size)
  | ds => (readNat? ds).filter (· < UInt64.size)

/-- The decimal text of a number, with zeros in front up to the given width. -/
def padded (width n : Nat) : String :=
  let digits := Nat.toDigits 10 n
  String.ofList (List.replicate (width - digits.length) '0' ++ digits)

end Newsfeed.Text
