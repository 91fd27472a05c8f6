import Newsfeed.Proofs.Time.Fields
import Newsfeed.Proofs.Time.Windows

/-!
A stored time is read back as the second that it shows, whichever way its year is written.
-/

namespace Newsfeed.Time

open Newsfeed.Text

theorem two_padded {n : Nat} (hn : n < 100) (rest : List Char) :
    Item.take.two ((padded 2 n).toList ++ rest) = some (n, rest) := by
  have hlength : (padded 2 n).toList.length = 2 := padded_length (by decide) hn
  exact two_spelled (spells_padded 2 n) (Nat.le_of_eq hlength) (.inl hlength)

namespace Instant

variable {t : Instant}

/-- The fields that a stored time shows. -/
def shownFields (t : Instant) : Fields :=
  ⟨t.date, t.secondOfDay / 3600, t.secondOfDay / 60 % 60, t.shownSecond⟩

theorem shownSecond_le (t : Instant) : t.shownSecond ≤ 60 := by
  unfold shownSecond
  split <;> omega

theorem read_storedText (t : Instant) :
    storedPattern.read? t.storedText.toList = some t.shownFields := by
  obtain ⟨⟨hmonth, hday⟩, hhour, hminute, hsecond⟩ := t.fields_lt_hundred
  have hblank (n : Nat) (rest : List Char) : trimStart (' ' :: ((padded 2 n).toList ++ rest)) =
      (padded 2 n).toList ++ rest :=
    (List.dropWhile_cons_of_pos (by decide)).trans ((spells_padded 2 n).trimStart rest)
  have hend := two_padded hsecond []
  rw [List.append_nil] at hend
  have hyear := writesYear_yearText t.date.year
  have hhyphen (rest : List Char) : takeYear ((yearText t.date.year).toList ++ '-' :: rest) =
      some (t.date.year, '-' :: rest) := takeYear_written hyear (noDigitFirst_cons rfl rest)
  rw [storedText_eq]
  simp [textBehindYear, storedPattern, Pattern.read?, Pattern.take, Item.take, takeChar,
    hyear.trimStart, hhyphen, two_padded, hmonth, hday, hhour, hminute, hend, hblank, shownFields]

theorem inRange_iff {n : Int} :
    inRange n ↔
      yearStart firstYear * daySeconds ≤ n ∧ n < yearStart (lastYear + 1) * daySeconds := by
  simp [inRange]

/-- The times in range are those of the years that have dates. -/
theorem inRange_iff_year :
    inRange t.seconds ↔ firstYear ≤ t.date.year ∧ t.date.year ≤ lastYear := by
  have hyear : t.date.year = yearOfDay t.day := rfl
  have hfirst := yearStart_le_iff (y := firstYear) (n := t.day)
  have hlast := yearStart_le_iff (y := lastYear + 1) (n := t.day)
  have hday : t.day = t.seconds / daySeconds := rfl
  rw [inRange_iff, hyear]
  unfold daySeconds at *
  omega

theorem inRange_of_plain (h : t.HasPlainYear) : inRange t.seconds := by
  rw [inRange_iff_year, firstYear, lastYear]
  exact ⟨by have := h.1; omega, by have := h.2; omega⟩

theorem shownFields_valid (h : inRange t.seconds) : t.shownFields.isValid := by
  have hyear := inRange_iff_year.mp h
  have hdate := t.date_exists
  have hsecond := t.shownSecond_le
  have := t.secondOfDay_lt
  simp only [Fields.isValid, Date.isValid, Bool.and_eq_true, decide_eq_true_eq]
  simp only [shownFields]
  exact ⟨⟨⟨⟨⟨hyear, hdate.dayPos⟩, hdate.dayLe⟩, by omega⟩, by omega⟩, hsecond⟩

theorem ofStoredText_storedText (h : inRange t.seconds) :
    ofStoredText? t.storedText = some (t.shownFields.instant 0) := by
  simp only [ofStoredText?, read_storedText, if_pos (shownFields_valid h)]

theorem day_shown (t : Instant) : (t.shownFields.instant 0).day = t.day := by
  have hday : t.date.toDay = t.day := (toDay_ofDay t.day).2
  have hsecond := t.shownSecond_le
  have := t.secondOfDay_lt
  unfold Fields.instant shownFields
  simp only [hday]
  split <;> simp only [day, daySeconds] <;> omega

/-- What a clock shows is what is left of an instant without its fraction of a second. -/
theorem instant_shownFields (h : t.OnClock) : t.shownFields.instant 0 = t.truncate := by
  have hday : t.date.toDay = t.day := (toDay_ofDay t.day).2
  have hminute := h.minute
  have hseconds : t.day * 86400 + (t.secondOfDay : Int) = t.seconds := by
    unfold day secondOfDay daySeconds
    omega
  have hleft : t.seconds % 60 = (t.secondOfDay % 60 : Nat) := by omega
  unfold Fields.instant shownFields shownSecond truncate
  simp only [hday, daySeconds]
  cases hleap : t.isLeapSecond with
  | false =>
    simp only [Bool.false_eq_true, if_false]
    rw [if_neg (by omega), mk.injEq]
    omega
  | true =>
    have := hminute hleap
    simp only [if_true]
    rw [if_pos (by omega), mk.injEq]
    omega

/-- An instant of the calendar, as a clock shows it. -/
structure Exists (t : Instant) : Prop extends t.OnClock where
  inRange : inRange t.seconds

theorem Exists.readBack (h : t.Exists) : ofStoredText? t.storedText = some t.truncate := by
  rw [ofStoredText_storedText h.inRange, instant_shownFields h.toOnClock]

end Instant

end Newsfeed.Time
