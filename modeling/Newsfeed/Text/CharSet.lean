namespace Newsfeed.Text

/-- A set of characters, as closed intervals of code points. -/
abbrev CharSet := List (Nat × Nat)

/-- Whether some interval of the set holds the character. -/
def CharSet.has (s : CharSet) (c : Char) : Bool :=
  s.any fun r => decide (r.1 ≤ c.toNat) && decide (c.toNat ≤ r.2)

theorem CharSet.has_iff (s : CharSet) (c : Char) :
    s.has c = true ↔ ∃ r ∈ s, r.1 ≤ c.toNat ∧ c.toNat ≤ r.2 := by
  simp [CharSet.has]

end Newsfeed.Text
