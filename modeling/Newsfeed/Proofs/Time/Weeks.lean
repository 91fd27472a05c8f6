import Newsfeed.Proofs.Time.ReadBack

/-!
Weeks and their names. A week belongs to the year of its Thursday, so that the first and the last
days of a year may be named after the year beside it; the names are in the order of the weeks all
the same.
-/

namespace Newsfeed.Time

open Newsfeed.Text

/-- The Monday of the week that a day lies in. -/
def monday (n : Int) : Int := n - weekday n

/-- Both days lie in one week, from a Monday to the Sunday after it. -/
def SameWeek (m n : Int) : Prop :=
  ∃ first, weekday first = 0 ∧ (first ≤ m ∧ m ≤ first + 6) ∧ first ≤ n ∧ n ≤ first + 6

theorem sameWeek_iff {m n : Int} : SameWeek m n ↔ monday m = monday n := by
  unfold SameWeek monday weekday
  constructor
  · intro ⟨first, hfirst, hm, hn⟩
    omega
  · intro h
    exact ⟨m - (m + 3) % 7, by omega, by omega, by omega⟩

theorem monday_mono {m n : Int} (h : m ≤ n) : monday m ≤ monday n := by
  unfold monday weekday
  omega

/-- Days of two weeks are in the order of the weeks. -/
theorem compare_of_weeks {m n : Int} (h : ¬SameWeek m n) :
    compare m n = compare (monday m) (monday n) ∧ compare m n ≠ .eq := by
  rw [sameWeek_iff] at h
  rcases Int.lt_trichotomy m n with hlt | rfl | hgt
  · have hweek := monday_mono (Int.le_of_lt hlt)
    rw [Int.compare_eq_lt.mpr hlt, Int.compare_eq_lt.mpr (by omega)]
    exact ⟨rfl, by decide⟩
  · exact absurd rfl h
  · have hweek := monday_mono (Int.le_of_lt hgt)
    rw [Int.compare_eq_gt.mpr hgt, Int.compare_eq_gt.mpr (by omega)]
    exact ⟨rfl, by decide⟩

theorem isoWeek_eq (n : Int) : isoWeek n = (yearOfDay (monday n + 3),
    (monday n + 3 - yearStart (yearOfDay (monday n + 3))) / 7 + 1) := rfl

/-- Weeks are in the order of their years and, within a year, of their numbers. -/
theorem compare_isoWeek (m n : Int) :
    (compare (isoWeek m).1 (isoWeek n).1).then (compare (isoWeek m).2 (isoWeek n).2) =
      compare (monday m) (monday n) := by
  have hlt {m n : Int} (h : monday m < monday n) :
      (compare (isoWeek m).1 (isoWeek n).1).then (compare (isoWeek m).2 (isoWeek n).2) = .lt := by
    have hseven : monday m + 7 ≤ monday n := by
      unfold monday weekday at *
      omega
    have hyear : (isoWeek m).1 ≤ (isoWeek n).1 :=
      yearOfDay_mono (show monday m + 3 ≤ monday n + 3 by omega)
    rw [Ordering.then_eq_lt, Int.compare_eq_lt, Int.compare_eq_eq, Int.compare_eq_lt]
    by_cases hsame : (isoWeek m).1 = (isoWeek n).1
    · refine .inr ⟨hsame, ?_⟩
      simp only [isoWeek_eq] at hsame ⊢
      rw [hsame]
      omega
    · exact .inl (by omega)
  rcases Int.lt_trichotomy (monday m) (monday n) with h | h | h
  · rw [hlt h, Int.compare_eq_lt.mpr h]
  · rw [isoWeek_eq m, h, ← isoWeek_eq n]
    simp
  · have hswap := hlt h
    rw [Int.compare_eq_gt.mpr h, ← Ordering.swap_inj, Ordering.swap_then, Int.compare_swap,
      Int.compare_swap, hswap]
    rfl

theorem isoWeek_number (n : Int) : 1 ≤ (isoWeek n).2 ∧ (isoWeek n).2 ≤ 53 := by
  have hyear := yearOfDay_spec (monday n + 3)
  have hlength := yearStart_succ (yearOfDay (monday n + 3))
  have hdays := monthLengths_sum (yearOfDay (monday n + 3))
  rw [isoWeek_eq]
  split at hdays <;> constructor <;> simp only <;> omega

/-- The name of a year in front of the numbers of its weeks. -/
def yearName (y : Int) : String :=
  if y < 0 then "-" ++ padded 3 y.natAbs else padded 4 y.toNat

def weekName (week : Int × Int) : String := yearName week.1 ++ "-" ++ padded 2 week.2.toNat

theorem weekText_eq (s : String) :
    weekText? s = (Instant.ofStoredText? s).map fun t => weekName (isoWeek t.day) := by
  unfold weekText? weekName yearName
  rfl

theorem yearName_inj {y z : Int} (h : yearName y = yearName z) : y = z := by
  have hsign (m n : Nat) : "-" ++ padded 3 m ≠ padded 4 n := by
    intro heq
    obtain ⟨c, cs, hcs, hdigit⟩ := exists_padded 4 n
    rw [← String.toList_inj, String.toList_append, hcs] at heq
    obtain rfl : '-' = c := (List.cons.inj heq).1
    cases hdigit
  unfold yearName at h
  split at h <;> split at h
  · have hpadded := padded_inj ((String.append_right_inj _).mp h)
    omega
  · exact absurd h (hsign _ _)
  · exact absurd h.symm (hsign _ _)
  · have hpadded := padded_inj h
    omega

theorem weekName_inj {m n : Int} (h : weekName (isoWeek m) = weekName (isoWeek n)) :
    isoWeek m = isoWeek n := by
  have hm := isoWeek_number m
  have hn := isoWeek_number n
  have hlength : (padded 2 (isoWeek m).2.toNat).toList.length =
      (padded 2 (isoWeek n).2.toNat).toList.length := by
    rw [padded_length (by decide) (by omega), padded_length (by decide) (by omega)]
  simp only [weekName, ← String.toList_inj, String.toList_append] at h
  obtain ⟨hyear, hweek⟩ := List.append_inj' h hlength
  have hyears := yearName_inj (String.toList_inj.mp (List.append_cancel_right hyear))
  have hweeks := padded_inj (String.toList_inj.mp hweek)
  exact Prod.ext hyears (by omega)

/-- Two weeks have one name only if they are one week. -/
theorem weekName_eq_iff {m n : Int} :
    weekName (isoWeek m) = weekName (isoWeek n) ↔ SameWeek m n := by
  rw [sameWeek_iff, ← Int.compare_eq_eq, ← compare_isoWeek]
  constructor
  · intro h
    simp [weekName_inj h]
  · intro h
    rw [Ordering.then_eq_eq, Int.compare_eq_eq, Int.compare_eq_eq] at h
    rw [Prod.ext h.1 h.2]

/-- The year before year 0 is the only one of these with a sign, and it is the first of them. -/
theorem compare_yearName {y z : Int} (hy : -1 ≤ y ∧ y ≤ 9999) (hz : -1 ≤ z ∧ z ≤ 9999)
    (a b : String) :
    compare (yearName y ++ a) (yearName z ++ b) = (compare y z).then (compare a b) := by
  have hsign (m n : Nat) (a b : String) :
      compare ("-" ++ padded 3 m ++ a) (padded 4 n ++ b) = .lt := by
    obtain ⟨c, cs, hcs, hdigit⟩ := exists_padded 4 n
    rw [compare_toList, String.toList_append, String.toList_append, String.toList_append, hcs]
    exact compare_sign_digit (.inl rfl) hdigit _ _
  unfold yearName
  split <;> split
  · obtain rfl : y = z := by omega
    rw [compare_concat_same, Int.compare_eq_eq.mpr rfl]
    rfl
  · rw [hsign, Int.compare_eq_lt.mpr (by omega)]
    rfl
  · rw [Std.OrientedCmp.gt_of_lt (hsign _ _ b a), Int.compare_eq_gt.mpr (by omega)]
    rfl
  · rw [compare_padded_concat (by decide) (by omega) (by omega), ← compare_ofNat,
      Int.toNat_of_nonneg (by omega), Int.toNat_of_nonneg (by omega)]

theorem compare_weekName {m n : Int} (hm : -1 ≤ (isoWeek m).1 ∧ (isoWeek m).1 ≤ 9999)
    (hn : -1 ≤ (isoWeek n).1 ∧ (isoWeek n).1 ≤ 9999) :
    compare (weekName (isoWeek m)) (weekName (isoWeek n)) = compare (monday m) (monday n) := by
  have hmweek := isoWeek_number m
  have hnweek := isoWeek_number n
  rw [weekName, weekName, String.append_assoc, String.append_assoc, compare_yearName hm hn,
    compare_concat_same, compare_toList, compare_padded (by decide) (by omega) (by omega),
    ← compare_ofNat, Int.toNat_of_nonneg (by omega), Int.toNat_of_nonneg (by omega),
    compare_isoWeek]

namespace Instant

variable {t u : Instant}

/-- January 1st of year 0 is a Saturday, so that its week belongs to the year before; December 31st
of year 9999 is a Friday. -/
theorem isoYear_plain (h : t.HasPlainYear) :
    -1 ≤ (isoWeek t.day).1 ∧ (isoWeek t.day).1 ≤ 9999 := by
  have hfirst : yearStart 0 ≤ t.day := yearStart_le_iff.mpr h.1
  have hlast : t.day < yearStart 10000 := lt_yearStart_iff.mpr (Int.lt_add_one_of_le h.2)
  have hbounds : yearStart (-1) ≤ monday t.day + 3 ∧ monday t.day + 3 < yearStart 10000 := by
    unfold monday weekday yearStart at *
    omega
  rw [isoWeek_eq]
  exact ⟨yearStart_le_iff.mp hbounds.1, Int.le_of_lt_add_one (lt_yearStart_iff.mp hbounds.2)⟩

theorem weekText_storedText (h : t.HasPlainYear) :
    weekText? t.storedText = some (weekName (isoWeek t.day)) := by
  rw [weekText_eq, ofStoredText_storedText (inRange_of_plain h), Option.map_some, day_shown]

theorem compare_week (ht : t.HasPlainYear) (hu : u.HasPlainYear) :
    compare (weekName (isoWeek t.day)) (weekName (isoWeek u.day)) =
      compare (monday t.day) (monday u.day) :=
  compare_weekName (isoYear_plain ht) (isoYear_plain hu)

end Instant

end Newsfeed.Time
