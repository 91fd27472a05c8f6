import Newsfeed.Proofs.Text.Decimal
import Newsfeed.Proofs.Text.Order
import Newsfeed.Proofs.Time.Calendar
import Newsfeed.Time.StoredText

/-!
Stored times beside each other. Between times whose years have four digits the order of the texts is
that of the whole seconds. A year with a sign puts a text in front of all of them, whichever sign it
is.
-/

namespace Newsfeed.Time

open Newsfeed.Text

theorem compare_concat {a b : String} (h : a.toList.length = b.toList.length) (c d : String) :
    compare (a ++ c) (b ++ d) = (compare a b).then (compare c d) := by
  simp only [compare_toList, String.toList_append, compare_append h]

theorem compare_concat_same (a c d : String) : compare (a ++ c) (a ++ d) = compare c d := by
  rw [compare_concat rfl, compare_toList a, Std.compare_self]
  rfl

theorem compare_padded_concat {width m n : Nat} (hwidth : 0 < width) (hm : m < 10 ^ width)
    (hn : n < 10 ^ width) (c d : String) :
    compare (padded width m ++ c) (padded width n ++ d) = (compare m n).then (compare c d) := by
  rw [compare_concat, compare_toList (padded width m), compare_padded hwidth hm hn]
  rw [padded_length hwidth hm, padded_length hwidth hn]

namespace Instant

/-- The place of an instant among the whole seconds, of which each minute has room for 61: a leap
second is the last of its minute. -/
def place (t : Instant) : Int :=
  t.seconds / 60 * 61 + (t.seconds % 60 + if t.isLeapSecond then 1 else 0)

/-- The year is written as four digits. -/
def HasPlainYear (t : Instant) : Prop := 0 ≤ t.date.year ∧ t.date.year ≤ 9999

instance (t : Instant) : Decidable t.HasPlainYear := inferInstanceAs (Decidable (_ ∧ _))

variable {t u : Instant}

theorem place_lt_of_day (h : t.day < u.day) : t.place < u.place := by
  unfold day daySeconds at h
  unfold place
  split <;> split <;> omega

/-- The second that is shown. -/
def shownSecond (t : Instant) : Nat := t.secondOfDay % 60 + if t.isLeapSecond then 1 else 0

theorem compare_place (t u : Instant) :
    compare t.place u.place = (compare t.day u.day).then
      ((compare (t.secondOfDay / 3600) (u.secondOfDay / 3600)).then
        ((compare (t.secondOfDay / 60 % 60) (u.secondOfDay / 60 % 60)).then
          (compare t.shownSecond u.shownSecond))) := by
  have hminute (t : Instant) : t.place / 61 = t.seconds / 60 ∧
      t.place % 61 = (t.shownSecond : Int) := by
    unfold place shownSecond secondOfDay daySeconds
    split <;> omega
  have hday (t : Instant) : t.seconds / 60 / 1440 = t.day ∧
      t.seconds / 60 % 1440 = ((t.secondOfDay / 60 : Nat) : Int) := by
    unfold day secondOfDay daySeconds
    omega
  have hhour (t : Instant) : ((t.secondOfDay / 60 : Nat) : Int) / 60 = (t.secondOfDay / 3600 : Nat) ∧
      ((t.secondOfDay / 60 : Nat) : Int) % 60 = (t.secondOfDay / 60 % 60 : Nat) := by
    omega
  rw [← compare_div_mod (by decide : (0 : Int) < 61), (hminute t).1, (hminute u).1, (hminute t).2,
    (hminute u).2, ← compare_div_mod (by decide : (0 : Int) < 1440), (hday t).1, (hday u).1,
    (hday t).2, (hday u).2, ← compare_div_mod (by decide : (0 : Int) < 60)
      ((t.secondOfDay / 60 : Nat) : Int), (hhour t).1, (hhour u).1, (hhour t).2, (hhour u).2]
  simp only [compare_ofNat, Ordering.then_assoc]

theorem date_exists (t : Instant) : t.date.Exists := (toDay_ofDay t.day).1

theorem secondOfDay_lt (t : Instant) : t.secondOfDay < 86400 := by
  unfold secondOfDay daySeconds
  omega

theorem yearText_plain (h : t.HasPlainYear) :
    yearText t.date.year = padded 4 t.date.year.toNat := if_pos h

theorem yearText_signed (h : ¬t.HasPlainYear) : yearText t.date.year =
    (if t.date.year < 0 then "-" else "+") ++ padded 4 t.date.year.natAbs := if_neg h

theorem HasPlainYear.lt (h : t.HasPlainYear) : t.date.year.toNat < 10 ^ 4 := by
  have := h.2
  omega

/-- The parts of a stored time behind its year. -/
def textBehindYear (t : Instant) : String :=
  "-" ++ (padded 2 t.date.month ++ ("-" ++ (padded 2 t.date.day ++ (" " ++
    (padded 2 (t.secondOfDay / 3600) ++ (":" ++ (padded 2 (t.secondOfDay / 60 % 60) ++ (":" ++
      padded 2 t.shownSecond))))))))

theorem storedText_eq (t : Instant) : t.storedText = yearText t.date.year ++ t.textBehindYear := by
  simp only [storedText, Date.text, clockText, textBehindYear, shownSecond, String.append_assoc]

/-- Two digits are enough for each part of a time but the year. -/
theorem fields_lt_hundred (t : Instant) :
    (t.date.month < 100 ∧ t.date.day < 100) ∧ t.secondOfDay / 3600 < 100 ∧
      t.secondOfDay / 60 % 60 < 100 ∧ t.shownSecond < 100 := by
  have hday := t.secondOfDay_lt
  refine ⟨t.date_exists.lt_hundred, by omega, by omega, ?_⟩
  unfold shownSecond
  split <;> omega

theorem compare_textBehindYear (t u : Instant) :
    compare t.textBehindYear u.textBehindYear =
      (compare t.date.month u.date.month).then ((compare t.date.day u.date.day).then
        ((compare (t.secondOfDay / 3600) (u.secondOfDay / 3600)).then
          ((compare (t.secondOfDay / 60 % 60) (u.secondOfDay / 60 % 60)).then
            (compare t.shownSecond u.shownSecond)))) := by
  obtain ⟨⟨htmonth, htday⟩, hthour, htminute, htsecond⟩ := t.fields_lt_hundred
  obtain ⟨⟨humonth, huday⟩, huhour, huminute, husecond⟩ := u.fields_lt_hundred
  have htwo : 0 < 2 := by decide
  unfold textBehindYear
  rw [compare_concat_same, compare_padded_concat htwo htmonth humonth, compare_concat_same,
    compare_padded_concat htwo htday huday, compare_concat_same,
    compare_padded_concat htwo hthour huhour, compare_concat_same,
    compare_padded_concat htwo htminute huminute, compare_concat_same,
    compare_toList (padded 2 t.shownSecond), compare_padded htwo htsecond husecond]

theorem compare_of_plain (ht : t.HasPlainYear) (hu : u.HasPlainYear) :
    compare t.storedText u.storedText = compare t.place u.place := by
  have hyear : compare t.date.year.toNat u.date.year.toNat =
      compare t.date.year u.date.year := by
    rw [← compare_ofNat, Int.toNat_of_nonneg ht.1, Int.toNat_of_nonneg hu.1]
  have hdate := order_ofDay t.day u.day
  rw [compare_place, ← hdate, storedText_eq, storedText_eq, yearText_plain ht, yearText_plain hu,
    compare_padded_concat (by decide) ht.lt hu.lt, hyear, compare_textBehindYear]
  simp only [Date.order, Ordering.then_assoc]
  rfl

theorem storedText_plain (ht : t.HasPlainYear) :
    ∃ c rest, t.storedText.toList = c :: rest ∧ c.isDigit := by
  obtain ⟨c, cs, hcs, hdigit⟩ := exists_padded 4 t.date.year.toNat
  rw [storedText_eq, yearText_plain ht, String.toList_append, hcs]
  exact ⟨c, cs ++ t.textBehindYear.toList, rfl, hdigit⟩

/-- A time with a sign in front of its year stands before all times with plain years. -/
theorem compare_of_signed (ht : ¬t.HasPlainYear) (hu : u.HasPlainYear) :
    compare t.storedText u.storedText = .lt := by
  obtain ⟨d, rest, hd, hdigit⟩ := storedText_plain hu
  obtain ⟨c, front, hc, hsign⟩ : ∃ c front, t.storedText.toList = c :: front ∧
      (c = '-' ∨ c = '+') := by
    rw [storedText_eq, yearText_signed ht]
    split
    · exact ⟨'-', _, by simp only [String.toList_append]; rfl, .inl rfl⟩
    · exact ⟨'+', _, by simp only [String.toList_append]; rfl, .inr rfl⟩
  rw [compare_toList, hc, hd, compare_sign_digit hsign hdigit]

theorem place_lt_of_year (h : t.date.year < u.date.year) : t.place < u.place := by
  have hdate : t.date.order u.date = compare t.day u.day := order_ofDay t.day u.day
  have horder : t.date.order u.date = .lt := by
    rw [Date.order, Int.compare_eq_lt.mpr h]
    rfl
  rw [hdate] at horder
  exact place_lt_of_day (Int.compare_eq_lt.mp horder)

/-- Times are in the order of their texts as long as the first is not beyond the plain years. -/
theorem compare_storedText (ht : t.date.year ≤ 9999) (hu : u.HasPlainYear) :
    compare t.storedText u.storedText = compare t.place u.place := by
  by_cases hplain : t.HasPlainYear
  · exact compare_of_plain hplain hu
  · have hyear : t.date.year < u.date.year := by
      have hfirst := hu.1
      have hneg : ¬0 ≤ t.date.year := fun h => hplain ⟨h, ht⟩
      omega
    rw [compare_of_signed hplain hu, Int.compare_eq_lt.mpr (place_lt_of_year hyear)]

theorem storedText_compare (hu : u.HasPlainYear) (ht : t.date.year ≤ 9999) :
    compare u.storedText t.storedText = compare u.place t.place := by
  have htext : compare u.storedText t.storedText = (compare t.storedText u.storedText).swap :=
    Std.OrientedCmp.eq_swap
  have hplace : compare u.place t.place = (compare t.place u.place).swap :=
    Std.OrientedCmp.eq_swap
  rw [htext, hplace, compare_storedText ht hu]

/-- The earliest instant is far below the plain years. -/
theorem earliest_not_plain : ¬earliest.HasPlainYear := by decide +kernel

theorem earliest_lt_of_plain (hu : u.HasPlainYear) : earliest.place < u.place := by
  refine place_lt_of_year (Int.lt_of_lt_of_le ?_ hu.1)
  decide +kernel

theorem place_le (h : t.seconds < u.seconds ∨
    t.seconds = u.seconds ∧ (t.isLeapSecond → u.isLeapSecond)) : t.place ≤ u.place := by
  unfold place
  rcases h with hlt | ⟨heq, hleap⟩
  · split <;> split <;> omega
  · by_cases ht : t.isLeapSecond = true
    · rw [if_pos ht, if_pos (hleap ht)]
      omega
    · rw [if_neg ht, heq]
      split <;> omega

/-- The whole second from which an instant is shifted: going back, a leap second is over. -/
def shiftStart (t : Instant) (n : Int) : Int :=
  if t.isLeapSecond ∧ n < 0 then t.seconds + 1 else t.seconds

/-- What is shifted at all is no leap second any more, if it was one of a clock: that is over after
a second. -/
theorem shift_cases {n : Int} {t' : Instant} (h : t.shift? n = some t') :
    t'.seconds = t.shiftStart n + n ∧
      (n = 0 ∧ t' = t ∨ n ≠ 0 ∧ (t.nanos < 2000000000 → t'.isLeapSecond = false)) := by
  unfold shift? at h
  simp only [Option.ite_none_right_eq_some, Option.some.injEq] at h
  obtain ⟨-, rfl⟩ := h
  unfold shiftStart
  by_cases hn : n = 0
  · subst hn
    simp
  · cases hleap : t.isLeapSecond with
    | false =>
      simp only [Bool.false_and, Bool.false_eq_true, false_and, if_false]
      exact ⟨trivial, .inr ⟨hn, fun _ => hleap⟩⟩
    | true =>
      have hmoves : (true && n != 0) = true := by simp [hn]
      simp only [hmoves, if_true, true_and]
      refine ⟨?_, .inr ⟨hn, fun hclock => ?_⟩⟩
      · split <;> split <;> omega
      · simp only [isLeapSecond, decide_eq_false_iff_not]
        omega

/-- Two instants are shifted without being passed by each other, if the first is one of a clock. -/
theorem shift_place_le (h : u.lt t = false) (hclock : t.nanos < 2000000000) {n : Int}
    {t' u' : Instant} (ht : t.shift? n = some t') (hu : u.shift? n = some u') :
    t'.place ≤ u'.place := by
  simp only [lt, Bool.or_eq_false_iff, Bool.and_eq_false_imp, beq_iff_eq,
    decide_eq_false_iff_not, Int.not_lt, Nat.not_lt] at h
  obtain ⟨hseconds, hnanos⟩ := h
  have hleap (hsame : u.seconds = t.seconds) : t.isLeapSecond → u.isLeapSecond := by
    simp only [isLeapSecond, decide_eq_true_eq]
    exact fun hlong => Nat.le_trans hlong (hnanos hsame)
  have hstart : t.shiftStart n ≤ u.shiftStart n := by
    unfold shiftStart
    by_cases hsame : u.seconds = t.seconds
    · split <;> split <;> grind
    · split <;> split <;> omega
  obtain ⟨htime, htleap⟩ := shift_cases ht
  obtain ⟨hutime, huleap⟩ := shift_cases hu
  apply place_le
  by_cases hsame : t'.seconds = u'.seconds
  · refine .inr ⟨hsame, fun hlong => ?_⟩
    rcases htleap with ⟨hn, rfl⟩ | ⟨-, hover⟩
    · obtain ⟨-, rfl⟩ := huleap.resolve_right fun hmove => hmove.1 hn
      exact hleap hsame.symm hlong
    · rw [hover hclock] at hlong
      cases hlong
  · exact .inl (by omega)

/-- Texts do not go back where places do not, as long as the second time has a plain year. -/
theorem storedText_le (hu : u.HasPlainYear) (h : t.place ≤ u.place) :
    compare t.storedText u.storedText ≠ .gt := by
  have hyear : t.date.year ≤ 9999 := by
    by_contra hbeyond
    have hlt : u.place < t.place := by
      refine place_lt_of_year ?_
      have := hu.2
      omega
    omega
  rw [compare_storedText hyear hu, ne_eq, Int.compare_eq_gt]
  omega

end Instant

/-- What is a span before the earlier of two instants is not behind what is the span before the
later, as their texts go. -/
theorem before_le {t u : Instant} (h : u.lt t = false) (hclock : t.nanos < 2000000000)
    {unit n : Int} (hplain : (before u unit n).HasPlainYear) :
    compare (before t unit n).storedText (before u unit n).storedText ≠ .gt := by
  refine Instant.storedText_le hplain ?_
  unfold before at hplain ⊢
  cases hspan : span? unit n with
  | none => exact Int.le_refl _
  | some span =>
    simp only [hspan, Option.bind_some] at hplain ⊢
    cases hu : u.shift? (-span) with
    | none =>
      rw [hu] at hplain
      exact absurd hplain Instant.earliest_not_plain
    | some u' =>
      rw [hu] at hplain
      cases ht : t.shift? (-span) with
      | none => exact Int.le_of_lt (Instant.earliest_lt_of_plain hplain)
      | some t' => exact Instant.shift_place_le h hclock ht hu

end Newsfeed.Time
