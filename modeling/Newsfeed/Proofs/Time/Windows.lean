import Newsfeed.Proofs.Time.StoredOrder

/-!
The start of a window of time that ends now. It is the instant so long ago, or the earliest one
where there is none, and in both cases not after the year 9999 if now is not.
-/

namespace Newsfeed.Time

namespace Instant

variable {now cut cut' t u : Instant}

/-- The instant is one that a clock shows: a leap second is the last of its minute. -/
structure OnClock (t : Instant) : Prop where
  nanos : t.nanos < 2000000000
  minute : t.isLeapSecond → t.seconds % 60 = 59

/-- On a clock whole seconds are in the order of what is left of the instants without the fractions
of a second. -/
theorem place_lt_iff_truncate (ht : t.OnClock) (hu : u.OnClock) :
    t.place < u.place ↔ t.truncate.lt u.truncate := by
  have htminute := ht.minute
  have huminute := hu.minute
  simp only [lt, Bool.or_eq_true, Bool.and_eq_true, decide_eq_true_eq, beq_iff_eq]
  unfold truncate place
  split <;> split <;> simp_all <;> omega

theorem shift_onClock {n : Int} (h : now.OnClock) (hcut : now.shift? n = some cut) :
    cut.OnClock := by
  obtain ⟨-, hsame | ⟨-, hover⟩⟩ := shift_cases hcut
  · rw [hsame.2]
    exact h
  · have hfalse := hover h.nanos
    refine ⟨?_, fun hleap => by simp [hfalse] at hleap⟩
    rw [isLeapSecond, decide_eq_false_iff_not] at hfalse
    omega

theorem seconds_lt_of_year (h : now.date.year ≤ 9999) :
    now.seconds < yearStart 10000 * daySeconds := by
  have hday : now.day < yearStart 10000 := lt_yearStart_iff.mpr (Int.lt_add_one_of_le h)
  have hseconds : now.day = now.seconds / daySeconds := rfl
  unfold daySeconds at *
  omega

theorem shift_eq_none {n : Int} : now.shift? n = none ↔ ¬inRange (now.shiftStart n + n) := by
  unfold shift? shiftStart
  cases now.isLeapSecond with
  | false => simp
  | true =>
    rcases Int.lt_trichotomy n 0 with hlt | rfl | hgt
    · have hback : ¬0 < n := by omega
      simp [hlt, hback, Int.ne_of_lt hlt]
    · simp
    · have hforth : ¬n < 0 := by omega
      simp [hgt, hforth, Int.ne_of_gt hgt]

/-- Going back, an instant is out of reach only if it is before the earliest one. -/
theorem shift_back {n : Int} (hnow : now.date.year ≤ 9999) (hn : n ≤ 0) :
    now.shift? n = none ↔ now.shiftStart n + n < earliest.seconds := by
  have hseconds := seconds_lt_of_year hnow
  have hlast : yearStart 10000 * daySeconds < yearStart (lastYear + 1) * daySeconds := by decide
  have hstart : now.shiftStart n + n ≤ now.seconds := by
    unfold shiftStart
    split <;> omega
  rw [shift_eq_none, inRange, Bool.and_eq_true, decide_eq_true_eq, decide_eq_true_eq, not_and_or,
    Int.not_le]
  constructor
  · intro h
    exact h.resolve_right fun hbeyond => hbeyond (by omega)
  · intro h
    exact .inl h

theorem shiftStart_mono {m n : Int} (hmn : m ≤ n) (hn : n ≤ 0) :
    now.shiftStart m + m ≤ now.shiftStart n + n := by
  unfold shiftStart
  cases now.isLeapSecond with
  | false =>
    simp only [Bool.false_eq_true, false_and, if_false]
    omega
  | true =>
    simp only [true_and]
    split <;> split <;> omega

theorem shift_none_mono {m n : Int} (hnow : now.date.year ≤ 9999) (hmn : m ≤ n) (hn : n ≤ 0)
    (h : now.shift? n = none) : now.shift? m = none := by
  rw [shift_back hnow hn] at h
  rw [shift_back hnow (Int.le_trans hmn hn)]
  exact Int.lt_of_le_of_lt (shiftStart_mono hmn hn) h

/-- The further back, the earlier. -/
theorem shift_mono {m n : Int} (hmn : m ≤ n) (hn : n ≤ 0) (hcut : now.shift? m = some cut)
    (hcut' : now.shift? n = some cut') : cut.place ≤ cut'.place := by
  obtain ⟨hseconds, -⟩ := shift_cases hcut
  obtain ⟨hseconds', hmoved'⟩ := shift_cases hcut'
  by_cases hsame : m = n
  · subst hsame
    exact Int.le_of_eq (congrArg place (Option.some.inj (hcut.symm.trans hcut')))
  · have hback : m < 0 := by omega
    apply place_le
    unfold shiftStart at hseconds hseconds'
    rcases hmoved' with ⟨rfl, hstays⟩ | ⟨hn', -⟩
    · rw [hstays]
      by_cases hleap : now.isLeapSecond = true
      · rw [if_pos ⟨hleap, hback⟩] at hseconds
        by_cases hlast : cut.seconds = now.seconds
        · exact .inr ⟨hlast, fun _ => hleap⟩
        · exact .inl (by omega)
      · rw [if_neg fun h => hleap h.1] at hseconds
        exact .inl (by omega)
    · have hback' : n < 0 := by omega
      simp only [hback, hback', and_true] at hseconds hseconds'
      exact .inl (by omega)

/-- An instant that is reached going back is not after the year of the start. -/
theorem shift_year {n : Int} (hnow : now.date.year ≤ 9999) (hn : n ≤ 0)
    (hcut : now.shift? n = some cut) : cut.date.year ≤ 9999 := by
  obtain ⟨hseconds, ⟨-, hstays⟩ | ⟨hmoved, -⟩⟩ := shift_cases hcut
  · rw [hstays]
    exact hnow
  · have hback : cut.seconds ≤ now.seconds := by
      unfold shiftStart at hseconds
      split at hseconds <;> omega
    have hday : cut.day ≤ now.day := by
      unfold day daySeconds
      omega
    exact Int.le_trans (yearOfDay_mono hday) hnow

end Instant

/-- The longest span is longer than all years with dates. -/
theorem before_eq {now : Instant} {unit n : Int} (hnow : now.date.year ≤ 9999)
    (hspan : 0 ≤ unit * n) :
    before now unit n = (now.shift? (-(unit * n))).getD Instant.earliest := by
  unfold before span?
  by_cases hlong : unit * n ≤ maxSpan
  · rw [if_pos ⟨by unfold maxSpan; omega, hlong⟩]
    rfl
  · have hnone : now.shift? (-(unit * n)) = none := by
      rw [Instant.shift_back hnow (by omega)]
      have hseconds := Instant.seconds_lt_of_year hnow
      have hfar : yearStart 10000 * daySeconds - maxSpan < Instant.earliest.seconds := by decide
      have hstart : now.shiftStart (-(unit * n)) ≤ now.seconds + 1 := by
        unfold Instant.shiftStart
        split <;> omega
      omega
    rw [if_neg fun h => hlong h.2, hnone]
    rfl

theorem before_year {now : Instant} {unit n : Int} (hnow : now.date.year ≤ 9999)
    (hspan : 0 ≤ unit * n) : (before now unit n).date.year ≤ 9999 := by
  rw [before_eq hnow hspan]
  cases hcut : now.shift? (-(unit * n)) with
  | none => decide +kernel
  | some cut => exact Instant.shift_year hnow (by omega) hcut

end Newsfeed.Time
