import Mathlib.Algebra.Ring.Nat
import Newsfeed.Time.Calendar

/-!
Days and dates are in the same order: a day has one date, and a later day a later one.
-/

namespace Newsfeed.Time

theorem monthLengths_sum (y : Int) :
    (monthLengths y).sum = if isLeapYear y then 366 else 365 := by
  unfold monthLengths
  split <;> rfl

theorem daysBeforeMonth_eq (y : Int) (m : Nat) :
    daysBeforeMonth y m = ((monthLengths y).take (m - 1)).sum := by
  rw [daysBeforeMonth, List.sum_eq_foldl]

theorem yearStart_succ (y : Int) : yearStart (y + 1) = yearStart y + (monthLengths y).sum := by
  have hleap : isLeapYear y = true ↔ y % 4 = 0 ∧ (y % 100 ≠ 0 ∨ y % 400 = 0) := by
    simp [isLeapYear]
  rw [monthLengths_sum]
  unfold yearStart
  split
  · have := hleap.mp ‹_›
    omega
  · have : ¬(y % 4 = 0 ∧ (y % 100 ≠ 0 ∨ y % 400 = 0)) := fun h => ‹¬_› (hleap.mpr h)
    omega

theorem yearStart_mono {y z : Int} (h : y ≤ z) : yearStart y ≤ yearStart z := by
  unfold yearStart
  omega

theorem yearOfDay_spec (n : Int) :
    yearStart (yearOfDay n) ≤ n ∧ n < yearStart (yearOfDay n + 1) := by
  unfold yearOfDay
  simp only
  split
  · unfold yearStart at *
    omega
  · split
    · unfold yearStart at *
      omega
    · exact ⟨by omega, by omega⟩

/-- A year has started on its own days and on those of later years. -/
theorem yearStart_le_iff {y n : Int} : yearStart y ≤ n ↔ y ≤ yearOfDay n := by
  have hyear := yearOfDay_spec n
  constructor
  · intro h
    refine Int.not_lt.mp fun hlt => ?_
    have := yearStart_mono (show yearOfDay n + 1 ≤ y from hlt)
    omega
  · intro h
    have := yearStart_mono h
    omega

theorem lt_yearStart_iff {y n : Int} : n < yearStart y ↔ yearOfDay n < y := by
  rw [← Int.not_le, yearStart_le_iff, Int.not_le]

theorem yearOfDay_mono {m n : Int} (h : m ≤ n) : yearOfDay m ≤ yearOfDay n :=
  yearStart_le_iff.mp (Int.le_trans (yearOfDay_spec m).1 h)

/-- The walk over the months ends in the one that holds the day. -/
theorem monthWalk_spec {m k : Nat} {lengths : List Nat} (h : k < lengths.sum) :
    ∃ i, ∃ hi : i < lengths.length, monthWalk m lengths k = (m + i, k - (lengths.take i).sum + 1) ∧
      (lengths.take i).sum ≤ k ∧ k < (lengths.take i).sum + lengths[i] := by
  induction lengths generalizing m k with
  | nil => simp at h
  | cons l ls ih =>
    rw [monthWalk]
    by_cases hk : k < l
    · exact ⟨0, by simp, by simp [hk], by simp, by simpa using hk⟩
    · rw [List.sum_cons] at h
      obtain ⟨i, hi, hwalk, hle, hlt⟩ := ih (m := m + 1) (k := k - l) (by omega)
      refine ⟨i + 1, by simpa using hi, ?_, ?_, ?_⟩
      · rw [if_neg hk, hwalk, List.take_succ_cons, List.sum_cons, Prod.mk.injEq]
        omega
      · rw [List.take_succ_cons, List.sum_cons]
        omega
      · rw [List.take_succ_cons, List.sum_cons, List.getElem_cons_succ]
        omega

/-- A date as days have one: its month and its day of the month are there. -/
structure Date.Exists (d : Date) : Prop where
  monthPos : 1 ≤ d.month
  monthLe : d.month ≤ 12
  dayPos : 1 ≤ d.day
  dayLe : d.day ≤ daysInMonth d.year d.month

theorem toDay_ofDay (n : Int) : (Date.ofDay n).Exists ∧ (Date.ofDay n).toDay = n := by
  have hyear := yearOfDay_spec n
  have hsum := yearStart_succ (yearOfDay n)
  have hin : (n - yearStart (yearOfDay n)).toNat < (monthLengths (yearOfDay n)).sum := by omega
  obtain ⟨i, hi, hwalk, hle, hlt⟩ := monthWalk_spec (m := 1) hin
  have hdate : Date.ofDay n = ⟨yearOfDay n, 1 + i, (n - yearStart (yearOfDay n)).toNat -
      ((monthLengths (yearOfDay n)).take i).sum + 1⟩ := by
    rw [Date.ofDay]
    simp only [hwalk]
  have hi' : i < 12 := hi
  have hbefore : daysBeforeMonth (yearOfDay n) (1 + i) =
      ((monthLengths (yearOfDay n)).take i).sum := by
    simp [daysBeforeMonth_eq]
  have hmonth : daysInMonth (yearOfDay n) (1 + i) = (monthLengths (yearOfDay n))[i] := by
    rw [daysInMonth, if_neg (by omega), Nat.add_sub_cancel_left, List.getElem?_eq_getElem hi]
    rfl
  rw [hdate]
  refine ⟨⟨by simp, by simp only; omega, by simp, ?_⟩, ?_⟩
  · simp only [hmonth]
    omega
  · simp only [Date.toDay, hbefore]
    omega

theorem daysInMonth_le (y : Int) (m : Nat) : daysInMonth y m ≤ 31 := by
  unfold daysInMonth
  split
  · omega
  · cases hm : (monthLengths y)[m - 1]? with
    | none => simp
    | some l =>
      have hmem := List.mem_of_getElem? hm
      simp only [monthLengths, List.mem_cons, List.not_mem_nil, or_false] at hmem
      simp only [Option.getD_some]
      split at hmem <;> omega

/-- Only the months have days. -/
theorem daysInMonth_pos {y : Int} {m : Nat} (h : 1 ≤ daysInMonth y m) : 1 ≤ m ∧ m ≤ 12 := by
  unfold daysInMonth at h
  split at h
  · cases h
  · rename_i hm
    by_contra hout
    have hbeyond : (monthLengths y).length ≤ m - 1 := by
      simp only [monthLengths, List.length_cons, List.length_nil]
      omega
    rw [List.getElem?_eq_none hbeyond] at h
    cases h

theorem Date.exists_of_valid {d : Date} (h : d.isValid) : d.Exists := by
  simp only [Date.isValid, Bool.and_eq_true, decide_eq_true_eq] at h
  obtain ⟨⟨-, hpos⟩, hle⟩ := h
  obtain ⟨hmonthPos, hmonthLe⟩ := daysInMonth_pos (Nat.le_trans hpos hle)
  exact ⟨hmonthPos, hmonthLe, hpos, hle⟩

/-- Two digits are enough for the month and for the day of it. -/
theorem Date.Exists.lt_hundred {d : Date} (h : d.Exists) : d.month < 100 ∧ d.day < 100 := by
  have hmonth := h.monthLe
  have hday := h.dayLe
  have hlast := daysInMonth_le d.year d.month
  omega

theorem daysBeforeMonth_succ {y : Int} {m : Nat} (hpos : 1 ≤ m) (hle : m ≤ 12) :
    daysBeforeMonth y (m + 1) = daysBeforeMonth y m + daysInMonth y m := by
  have hm : m - 1 < (monthLengths y).length := by
    simp only [monthLengths, List.length_cons, List.length_nil]
    omega
  have htake : m + 1 - 1 = (m - 1) + 1 := by omega
  rw [daysBeforeMonth_eq, daysBeforeMonth_eq, daysInMonth, if_neg (by omega), htake,
    List.take_add_one, List.sum_append, List.getElem?_eq_getElem hm]
  simp

theorem daysBeforeMonth_mono {y : Int} {m k : Nat} (h : m ≤ k) :
    daysBeforeMonth y m ≤ daysBeforeMonth y k := by
  obtain ⟨d, hd⟩ := Nat.exists_eq_add_of_le (Nat.sub_le_sub_right h 1)
  rw [daysBeforeMonth_eq, daysBeforeMonth_eq, hd, List.take_add, List.sum_append]
  exact Nat.le_add_right _ _

theorem Date.Exists.toDay_lt {d : Date} (h : d.Exists) :
    yearStart d.year ≤ d.toDay ∧ d.toDay < yearStart (d.year + 1) := by
  have hpos := h.dayPos
  have hday := h.dayLe
  have hlast := daysBeforeMonth_succ (y := d.year) h.monthPos h.monthLe
  have hyear : daysBeforeMonth d.year (d.month + 1) ≤ daysBeforeMonth d.year (12 + 1) :=
    daysBeforeMonth_mono (Nat.add_le_add_right h.monthLe 1)
  have hsum : daysBeforeMonth d.year (12 + 1) = (monthLengths d.year).sum :=
    daysBeforeMonth_eq d.year (12 + 1)
  rw [yearStart_succ]
  unfold Date.toDay
  omega

/-- The order of two dates: by year, by month and by day. -/
def Date.order (a b : Date) : Ordering :=
  (compare a.year b.year).then ((compare a.month b.month).then (compare a.day b.day))

theorem order_swap (a b : Date) : (a.order b).swap = b.order a := by
  simp only [Date.order, Ordering.swap_then, Int.compare_swap, Nat.compare_swap]

theorem order_of_lt {a b : Date} (ha : a.Exists) (hb : b.Exists) (h : a.toDay < b.toDay) :
    a.order b = .lt := by
  have hyear : a.year ≤ b.year := by
    refine Int.not_lt.mp fun hlt => ?_
    have hstart := yearStart_mono (show b.year + 1 ≤ a.year from hlt)
    have hin := ha.toDay_lt
    have hin' := hb.toDay_lt
    omega
  rw [Date.order, Ordering.then_eq_lt, Ordering.then_eq_lt, Int.compare_eq_lt, Int.compare_eq_eq,
    Nat.compare_eq_lt, Nat.compare_eq_eq, Nat.compare_eq_lt]
  by_cases hsame : a.year = b.year
  · refine .inr ⟨hsame, ?_⟩
    unfold Date.toDay at h
    rw [hsame] at h
    have hmonth : a.month ≤ b.month := by
      refine Nat.not_lt.mp fun hlt => ?_
      have hbefore := daysBeforeMonth_mono (y := b.year) (show b.month + 1 ≤ a.month from hlt)
      have hnext := daysBeforeMonth_succ (y := b.year) hb.monthPos hb.monthLe
      have hfirst := ha.dayPos
      have hlast := hb.dayLe
      omega
    by_cases hsame' : a.month = b.month
    · rw [hsame'] at h
      exact .inr ⟨hsame', by omega⟩
    · exact .inl (by omega)
  · exact .inl (by omega)

/-- Dates are in the order of their days. -/
theorem order_ofDay (m n : Int) : (Date.ofDay m).order (Date.ofDay n) = compare m n := by
  obtain ⟨hm, hmday⟩ := toDay_ofDay m
  obtain ⟨hn, hnday⟩ := toDay_ofDay n
  rcases Int.lt_trichotomy m n with hlt | rfl | hgt
  · rw [Int.compare_eq_lt.mpr hlt]
    exact order_of_lt hm hn (by omega)
  · simp [Date.order]
  · have hswap : (Date.ofDay n).order (Date.ofDay m) = .lt := order_of_lt hn hm (by omega)
    rw [Int.compare_eq_gt.mpr hgt, ← order_swap, hswap]
    rfl

end Newsfeed.Time
