import Mathlib.Algebra.Ring.Nat
import Newsfeed.Text.Decimal

/-!
The order of texts, character by character. Numbers that are padded to one width are in the order of
their sizes.
-/

namespace Newsfeed.Text

theorem compareOfLessAndEq_cons (a b : Char) (as bs : List Char) :
    compareOfLessAndEq (a :: as) (b :: bs) = (compare a b).then (compareOfLessAndEq as bs) := by
  have hchar : compare a b = compareOfLessAndEq a b := rfl
  rw [hchar]
  unfold compareOfLessAndEq
  by_cases hlt : a < b
  · rw [if_pos (List.cons_lt_cons_iff.mpr (.inl hlt)), if_pos hlt]
    rfl
  · by_cases heq : a = b
    · subst heq
      simp
    · simp [List.cons_lt_cons_iff, hlt, heq]

theorem compare_toList (s t : String) : compare s t = compare s.toList t.toList := by
  have hlist (l m : List Char) : compareOfLessAndEq l m = compare l m := by
    induction l generalizing m with
    | nil => cases m <;> rfl
    | cons a as ih =>
      cases m with
      | nil => rfl
      | cons b bs => rw [compareOfLessAndEq_cons, ih, List.compare_cons_cons]
  rw [← hlist]
  have hstring : compare s t = compareOfLessAndEq s t := rfl
  rw [hstring]
  unfold compareOfLessAndEq
  simp only [String.lt_iff, String.toList_inj]

/-- Of two texts with fronts of one length the fronts are compared first. -/
theorem compare_append {a b : List Char} (h : a.length = b.length) (c d : List Char) :
    compare (a ++ c) (b ++ d) = (compare a b).then (compare c d) := by
  induction a generalizing b with
  | nil =>
    obtain rfl := List.length_eq_zero_iff.mp h.symm
    rfl
  | cons x xs ih =>
    cases b with
    | nil => simp at h
    | cons y ys =>
      rw [List.cons_append, List.cons_append, List.compare_cons_cons, List.compare_cons_cons,
        ih (by simpa using h), Ordering.then_assoc]

/-- Signs stand in front of digits. -/
theorem compare_sign_digit {c d : Char} (hc : c = '-' ∨ c = '+') (hd : d.isDigit)
    (cs ds : List Char) : compare (c :: cs) (d :: ds) = .lt := by
  have hlt : c < d := by
    simp only [Char.isDigit, Bool.and_eq_true, decide_eq_true_eq] at hd
    have hbound := hd.1
    rcases hc with rfl | rfl <;>
      simp only [Char.lt_def, UInt32.lt_iff_toNat_lt, ge_iff_le, UInt32.le_iff_toNat_le] at * <;>
      exact Nat.lt_of_lt_of_le (by decide) hbound
  have hcompare : compare c d = .lt := if_pos hlt
  rw [List.compare_cons_cons, hcompare]
  rfl

theorem compare_singleton (a b : Char) : compare [a] [b] = compare a b := by
  rw [List.compare_cons_cons]
  cases compare a b <;> rfl

theorem compare_digitChar {m n : Nat} (hm : m < 10) (hn : n < 10) :
    compare m.digitChar n.digitChar = compare m n := by
  have hall : ∀ a : Fin 10, ∀ b : Fin 10,
      compare (Nat.digitChar a) (Nat.digitChar b) = compare a.val b.val := by decide
  exact hall ⟨m, hm⟩ ⟨n, hn⟩

/-- Numbers are in the order of their quotients and then of their remainders. -/
theorem compare_div_mod {b : Int} (hb : 0 < b) (m n : Int) :
    (compare (m / b) (n / b)).then (compare (m % b) (n % b)) = compare m n := by
  have hm := Int.mul_ediv_add_emod m b
  have hn := Int.mul_ediv_add_emod n b
  have hm' := Int.emod_nonneg m (Int.ne_of_gt hb)
  have hn' := Int.emod_nonneg n (Int.ne_of_gt hb)
  have hm'' := Int.emod_lt_of_pos m hb
  have hn'' := Int.emod_lt_of_pos n hb
  have hstep {q r : Int} (h : q < r) : b * q + b ≤ b * r := by
    have := Int.mul_le_mul_of_nonneg_left (show q + 1 ≤ r from h) (Int.le_of_lt hb)
    rwa [Int.mul_add, Int.mul_one] at this
  rcases Int.lt_trichotomy (m / b) (n / b) with hlt | heq | hgt
  · have := hstep hlt
    rw [Int.compare_eq_lt.mpr hlt, Int.compare_eq_lt.mpr (show m < n by omega)]
    rfl
  · rw [heq] at hm ⊢
    have hsame : compare (m % b) (n % b) = compare m n := by
      rcases Int.lt_trichotomy (m % b) (n % b) with hlt | hmod | hgt
      · rw [Int.compare_eq_lt.mpr hlt, Int.compare_eq_lt.mpr (show m < n by omega)]
      · rw [Int.compare_eq_eq.mpr hmod, Int.compare_eq_eq.mpr (show m = n by omega)]
      · rw [Int.compare_eq_gt.mpr hgt, Int.compare_eq_gt.mpr (show n < m by omega)]
    rw [Int.compare_eq_eq.mpr rfl]
    exact hsame
  · have := hstep hgt
    rw [Int.compare_eq_gt.mpr hgt, Int.compare_eq_gt.mpr (show n < m by omega)]
    rfl

theorem compare_ofNat (m n : Nat) : compare (m : Int) n = compare m n := by
  rcases Nat.lt_trichotomy m n with h | rfl | h
  · rw [Nat.compare_eq_lt.mpr h, Int.compare_eq_lt.mpr (by omega)]
  · simp
  · rw [Nat.compare_eq_gt.mpr h, Int.compare_eq_gt.mpr (by omega)]

/-- A padded number is its last digit behind the padded rest of it. -/
theorem padded_succ {width n : Nat} (hwidth : 0 < width) (hn : n < 10 ^ (width + 1)) :
    (padded (width + 1) n).toList = (padded width (n / 10)).toList ++ [(n % 10).digitChar] := by
  simp only [padded, String.toList_ofList]
  by_cases hsmall : n < 10
  · have hzeros : List.replicate width '0' = List.replicate (width - 1) '0' ++ ['0'] := by
      obtain ⟨w, rfl⟩ := Nat.exists_eq_succ_of_ne_zero (Nat.ne_of_gt hwidth)
      simp [List.replicate_succ']
    rw [Nat.toDigits_of_lt_base hsmall, Nat.div_eq_of_lt hsmall, Nat.mod_eq_of_lt hsmall,
      Nat.toDigits_zero]
    simp only [List.length_singleton, Nat.add_sub_cancel, hzeros]
  · rw [Nat.toDigits_of_base_le (by omega) (by omega), List.length_append, List.length_singleton,
      Nat.add_sub_add_right, List.append_assoc]

theorem padded_length {width n : Nat} (hwidth : 0 < width) (hn : n < 10 ^ width) :
    (padded width n).toList.length = width := by
  have hle := (Nat.length_toDigits_le_iff (by decide : 1 < 10) hwidth).mpr hn
  simp only [padded, String.toList_ofList, List.length_append, List.length_replicate]
  omega

/-- Padded numbers are in the order of their sizes. -/
theorem compare_padded {width m n : Nat} (hwidth : 0 < width) (hm : m < 10 ^ width)
    (hn : n < 10 ^ width) :
    compare (padded width m).toList (padded width n).toList = compare m n := by
  induction width generalizing m n with
  | zero => exact absurd hwidth (Nat.lt_irrefl 0)
  | succ width ih =>
    cases width with
    | zero =>
      have hm' : m < 10 := hm
      have hn' : n < 10 := hn
      simp only [padded, Nat.toDigits_of_lt_base hm', Nat.toDigits_of_lt_base hn',
        String.toList_ofList]
      exact (compare_singleton _ _).trans (compare_digitChar hm' hn')
    | succ width =>
      have hm' : m / 10 < 10 ^ (width + 1) := Nat.div_lt_of_lt_mul (by rwa [← Nat.pow_succ'])
      have hn' : n / 10 < 10 ^ (width + 1) := Nat.div_lt_of_lt_mul (by rwa [← Nat.pow_succ'])
      have hparts := compare_div_mod (show (0 : Int) < 10 by decide) m n
      rw [padded_succ (Nat.succ_pos width) hm, padded_succ (Nat.succ_pos width) hn, compare_append,
        ih (Nat.succ_pos width) hm' hn', compare_singleton,
        compare_digitChar (Nat.mod_lt m (by decide)) (Nat.mod_lt n (by decide)),
        ← compare_ofNat m n, ← hparts, ← compare_ofNat, ← compare_ofNat]
      · rfl
      · rw [padded_length (Nat.succ_pos width) hm', padded_length (Nat.succ_pos width) hn']

end Newsfeed.Text
