import Newsfeed.Machine.Word
import Newsfeed.Proofs.Text.Decimal

/-!
A number is read digit by digit in checked steps, and each step takes it further from zero. So it is
read exactly if the whole of it fits, and there is no number that fails on the way and would have
fitted in the end.
-/

namespace Newsfeed.Machine

open Newsfeed.Text

variable {m n : Int}

theorem isInt64_iff : isInt64 n = true ↔ minInt64 ≤ n ∧ n ≤ maxInt64 := by
  simp [isInt64]

/-- What lies between two numbers that fit, fits. -/
theorem isInt64_between {low high : Int} (hlow : isInt64 low) (hhigh : isInt64 high) (hl : low ≤ n)
    (hh : n ≤ high) : isInt64 n := by
  rw [isInt64_iff] at *
  omega

theorem fit_of_isInt64 (h : isInt64 n) : fit n = .ok n := if_pos h

theorem fit?_of_isInt64 (h : isInt64 n) : fit? n = some n := if_pos h

theorem fit?_of_not (h : ¬ isInt64 n) : fit? n = none := if_neg h

/-- What the size of the least number ends in. -/
def Abort.ofLeast : Abort := .overflow (-minInt64)

/-- The least number is the only one whose size does not fit. -/
theorem size_eq (h : isInt64 n) :
    size n = if n = minInt64 then .error .ofLeast else .ok (n.natAbs : Int) := by
  rw [isInt64_iff] at h
  unfold minInt64 maxInt64 at h
  split
  · rename_i hleast
    subst hleast
    rfl
  · rename_i hother
    apply fit_of_isInt64
    rw [isInt64_iff]
    unfold minInt64 at hother
    unfold minInt64 maxInt64
    omega

/-- A number with a minus sign in front or without one. -/
def signed (negative : Bool) (n : Nat) : Int := if negative then -(n : Int) else n

/-- More digits do not bring a number back that is too long already. -/
theorem signed_longer {negative : Bool} {k n : Nat} (h : ¬ isInt64 (signed negative k))
    (hle : k ≤ n) : ¬ isInt64 (signed negative n) := by
  intro hn
  apply h
  have hzero : isInt64 0 := rfl
  unfold signed at *
  cases negative with
  | true =>
    simp only [↓reduceIte] at *
    exact isInt64_between hn hzero (by omega) (by omega)
  | false =>
    simp only [Bool.false_eq_true, ↓reduceIte] at *
    exact isInt64_between hzero hn (by omega) (by omega)

theorem pushDigit_signed (negative : Bool) (n : Nat) (d : Char) :
    pushDigit? negative (signed negative n) d =
      fit? (signed negative (10 * n + digitValue d)) := by
  have htens : 10 * signed negative n = signed negative (10 * n) := by
    unfold signed
    split <;> push_cast <;> omega
  have hunits : (if negative then signed negative (10 * n) - digitValue d
      else signed negative (10 * n) + digitValue d) = signed negative (10 * n + digitValue d) := by
    unfold signed
    split <;> push_cast <;> omega
  rw [pushDigit?, htens]
  by_cases hfits : isInt64 (signed negative (10 * n))
  · rw [fit?_of_isInt64 hfits, Option.bind_some, hunits]
  · rw [fit?_of_not hfits, fit?_of_not (signed_longer hfits (Nat.le_add_right _ _))]
    rfl

theorem le_digits (ds : List Char) (n : Nat) :
    n ≤ ds.foldl (fun n d => 10 * n + digitValue d) n := by
  induction ds generalizing n with
  | nil => exact Nat.le_refl n
  | cons d ds ih =>
    have hstep : n ≤ 10 * n + digitValue d := by omega
    exact Nat.le_trans hstep (ih _)

/-- A run of checked steps is one check of the number that all the digits write. -/
theorem pushDigits_signed (negative : Bool) (ds : List Char) (n : Nat)
    (h : isInt64 (signed negative n)) :
    ds.foldlM (pushDigit? negative) (signed negative n) =
      fit? (signed negative (ds.foldl (fun n d => 10 * n + digitValue d) n)) := by
  induction ds generalizing n with
  | nil => exact (fit?_of_isInt64 h).symm
  | cons d ds ih =>
    rw [List.foldlM_cons, pushDigit_signed, List.foldl_cons]
    by_cases hfits : isInt64 (signed negative (10 * n + digitValue d))
    · rw [fit?_of_isInt64 hfits]
      exact ih _ hfits
    · rw [fit?_of_not hfits, fit?_of_not (signed_longer hfits (le_digits ds _))]
      rfl

theorem readDigits_eq (negative : Bool) (ds : List Char) :
    readDigits? negative ds = ((readNat? ds).map (signed negative)).filter isInt64 := by
  have hzero : signed negative 0 = 0 := by cases negative <;> rfl
  have hfits : isInt64 (signed negative 0) := by rw [hzero]; rfl
  unfold readDigits? readNat?
  split
  · rw [← hzero, pushDigits_signed negative ds 0 hfits]
    simp [fit?, digitsValue, Option.filter]
  · rfl

/-- Reading digit by digit finds the numbers that fit, and no others. -/
theorem readWord_eq (cs : List Char) : readWord? cs = readInt64? cs := by
  have hplus : signed false = Int.ofNat := rfl
  have hminus : signed true = fun n => -Int.ofNat n := rfl
  unfold readWord?
  split
  · rw [readDigits_eq, hplus, readInt64?, readInt?]
  · rw [readDigits_eq, hminus, readInt64?, readInt?]
  · rename_i hnotPlus hnotMinus
    rw [readDigits_eq, hplus, readInt64?, readInt?]
    · exact hnotPlus
    · exact hnotMinus

end Newsfeed.Machine
