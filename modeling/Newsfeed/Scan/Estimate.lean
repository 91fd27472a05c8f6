/-!
Rough numbers of rows and steps. They are kept as ten times their binary logarithm, so that a
product is a sum.
-/

namespace Newsfeed.Scan

/-- Ten times the binary logarithm of a number of rows or steps. -/
abbrev Estimate := Int

namespace Estimate

/-- What the lesser of two numbers adds to the greater, by how far they are apart. -/
def increments : List Int :=
  [10, 10, 9, 9, 8, 8, 7, 7, 7, 6, 6, 6, 5, 5, 5, 4, 4, 4, 4, 3, 3, 3, 3, 3, 3, 2, 2, 2, 2, 2, 2, 2]

/-- The estimate of the sum of two numbers. -/
def sum (a b : Estimate) : Estimate :=
  let gap := (max a b - min a b).toNat
  max a b + (if 49 < gap then 0 else if 31 < gap then 1 else increments.getD gap 0)

/-- Ten times the binary logarithms of one and so many eighths. -/
def eighths : List Int := [0, 2, 3, 5, 6, 7, 8, 9]

def ofNat (n : Nat) : Estimate :=
  if n < 2 then 0 else 10 * (n.log2 : Int) + eighths.getD (8 * n / Nat.pow 2 n.log2 % 8) 0

/-- The estimate of the logarithm of a number, with which sorting and looking up grow. -/
def log (n : Estimate) : Estimate := if n ≤ 10 then 0 else ofNat n.toNat - 33

end Estimate

end Newsfeed.Scan
