import Mathlib.Algebra.Order.BigOperators.GroupWithZero.List
import Mathlib.Algebra.Order.Ring.Int
import Newsfeed.Machine.Time
import Newsfeed.Proofs.Machine.Numbers
import Newsfeed.Proofs.Time.DayStart
import Newsfeed.Proofs.Time.ReadBack

/-!
The start of a window and the day of a search, on a machine. The seconds of an amount are checked
after each factor, and an instant of the calendar is so far from the ends of the number line that
what is added to it always fits. So no window and no day is lost on the way.
-/

namespace Newsfeed.Machine

open Newsfeed.Text Newsfeed.Time

/-- The number is no longer than a span of time can be. -/
def IsSpan (n : Int) : Prop := -maxSpan ≤ n ∧ n ≤ maxSpan

section Amounts

variable {n : Int} {factors : List Int}

theorem isInt64_add {k : Int} (hk : IsSpan k) (hn : IsSpan n) : isInt64 (k + n) := by
  rw [isInt64_iff]
  unfold IsSpan maxSpan at *
  unfold minInt64 maxInt64
  omega

theorem IsSpan.fits (h : IsSpan n) : isInt64 n := by
  have hzero : IsSpan 0 := ⟨by decide, by decide⟩
  have hsum := isInt64_add h hzero
  rwa [Int.add_zero] at hsum

theorem IsSpan.neg (h : IsSpan n) : IsSpan (-n) := by
  unfold IsSpan at *
  omega

/-- What is multiplied further does not come back into range. -/
theorem not_isInt64_mul {k : Int} (h : ¬ isInt64 n) (hk : 0 < k) : ¬ isInt64 (n * k) := by
  rw [isInt64_iff, not_and_or, Int.not_le, Int.not_le] at *
  unfold minInt64 maxInt64 at *
  rcases h with hlow | hhigh
  · have hle : n * k ≤ n * 1 := Int.mul_le_mul_of_nonpos_left (by omega) hk
    omega
  · have hle : n * 1 ≤ n * k := Int.mul_le_mul_of_nonneg_left hk (by omega)
    omega

/-- Checking after each factor is checking the whole product. -/
theorem scale_eq (hpos : ∀ f ∈ factors, 0 < f) (hfits : isInt64 n) :
    scale? n factors = fit? (n * factors.prod) := by
  induction factors generalizing n with
  | nil =>
    rw [List.prod_nil, Int.mul_one, fit?_of_isInt64 hfits]
    rfl
  | cons f fs ih =>
    have hrest : ∀ g ∈ fs, 0 < g := fun g hg => hpos g (List.mem_cons_of_mem f hg)
    have hproduct : n * (f :: fs).prod = n * f * fs.prod := by
      rw [List.prod_cons, Int.mul_assoc]
    rw [hproduct, scale?, List.foldlM_cons]
    by_cases hstep : isInt64 (n * f)
    · rw [fit?_of_isInt64 hstep]
      exact ih hrest hstep
    · have hprod : 0 < fs.prod := List.prod_pos hrest
      rw [fit?_of_not hstep, fit?_of_not (not_isInt64_mul hstep hprod)]
      rfl

theorem seconds_eq (hpos : ∀ f ∈ factors, 0 < f) (hfits : isInt64 n) :
    seconds? factors n = span? factors.prod n := by
  rw [seconds?, scale_eq hpos hfits, span?, Int.mul_comm n]
  by_cases hspan : -maxSpan ≤ factors.prod * n ∧ factors.prod * n ≤ maxSpan
  · have hfitting : IsSpan (factors.prod * n) := hspan
    rw [fit?_of_isInt64 hfitting.fits, if_pos hspan]
    exact Option.filter_some_pos (by simpa using hspan)
  · rw [if_neg hspan, Option.filter_eq_none_iff]
    intro s hs hshort
    rw [fit?, Option.ite_none_right_eq_some, Option.some.injEq] at hs
    obtain ⟨-, rfl⟩ := hs
    exact hspan (by simpa using hshort)

theorem isSpan_of_span {unit s : Int} (h : span? unit n = some s) : IsSpan s := by
  rw [span?, Option.ite_none_right_eq_some, Option.some.injEq] at h
  obtain ⟨hspan, rfl⟩ := h
  exact hspan

end Amounts

section Windows

variable {now t : Instant} {n : Int} {factors : List Int}

theorem inRange_bounds (h : Instant.inRange n) : -8334601228800 ≤ n ∧ n < 8210266876800 :=
  Instant.inRange_iff.mp h

theorem isSpan_of_inRange (h : Instant.inRange n) : IsSpan n ∧ IsSpan (n + 1) := by
  have hbounds := inRange_bounds h
  unfold IsSpan maxSpan
  omega

theorem shift_eq (h : Instant.inRange t.seconds) (hn : IsSpan n) :
    shift t n = .ok (t.shift? n) := by
  obtain ⟨hsecond, hnext⟩ := isSpan_of_inRange h
  have hsum := isInt64_add hsecond hn
  have hsumNext := isInt64_add hnext hn
  unfold shift Instant.shift?
  cases hmoves : t.isLeapSecond && n != 0 with
  | false =>
    simp [fit_of_isInt64 hsecond.fits, fit_of_isInt64 hsum, bind, Except.bind, pure, Except.pure]
  | true =>
    have hn0 : n ≠ 0 := by
      rintro rfl
      simp at hmoves
    -- Going back a leap second is over, going forward it is still the second before it.
    by_cases hback : n < 0
    · have hforth : ¬ 0 < n := by omega
      simp [hback, hforth, fit_of_isInt64 hnext.fits, fit_of_isInt64 hsumNext, bind, Except.bind,
        pure, Except.pure]
    · have hforth : 0 < n := by omega
      simp [hback, hforth, fit_of_isInt64 hsecond.fits, fit_of_isInt64 hsum, bind, Except.bind,
        pure, Except.pure]

theorem shiftBack_eq (h : Instant.inRange t.seconds) (hn : IsSpan n) :
    shiftBack t n = .ok (t.shift? (-n)) := by
  rw [shiftBack, fit_of_isInt64 hn.neg.fits]
  exact shift_eq h hn.neg

/-- A window starts where it should, whatever its length. -/
theorem before_eq (hnow : Instant.inRange now.seconds) (hpos : ∀ f ∈ factors, 0 < f)
    (hn : isInt64 n) : before now factors n = .ok (Time.before now factors.prod n) := by
  rw [before, seconds_eq hpos hn, Time.before]
  cases hspan : span? factors.prod n with
  | none => rfl
  | some s =>
    simp only [shiftBack_eq hnow (isSpan_of_span hspan), Option.bind_some]
    rfl

theorem hoursBefore_eq (hnow : Instant.inRange now.seconds) (hn : isInt64 n) :
    hoursBefore now n = .ok (Time.hoursBefore now n) :=
  before_eq hnow (by decide) hn

theorem minutesBefore_eq (hnow : Instant.inRange now.seconds) (hn : isInt64 n) :
    minutesBefore now n = .ok (Time.minutesBefore now n) :=
  before_eq hnow (by decide) hn

end Windows

section Spans

variable {now : Instant}

theorem unitFactors_prod (cs : List Char) :
    (unitFactors? cs).map List.prod = unitSeconds? cs := by
  unfold unitFactors? unitSeconds?
  grind

theorem unitFactors_pos {cs : List Char} {factors : List Int} (h : unitFactors? cs = some factors) :
    ∀ f ∈ factors, 0 < f := by
  unfold unitFactors? at h
  grind

theorem readSpan_eq (cs : List Char) : readSpan? cs = Time.readSpan? cs := by
  simp only [readSpan?, Time.readSpan?, readWord_eq, ← unitFactors_prod, Option.bind_eq_bind,
    Option.bind_map]
  refine Option.bind_congr fun amount hamount => Option.bind_congr fun factors hfactors => ?_
  exact seconds_eq (unitFactors_pos hfactors) (readInt64_iff.mp hamount).2

theorem isSpan_of_read {cs : List Char} {s : Int} (h : Time.readSpan? cs = some s) : IsSpan s := by
  simp only [Time.readSpan?, Option.bind_eq_bind, Option.bind_eq_some_iff] at h
  obtain ⟨amount, -, unit, -, hspan⟩ := h
  exact isSpan_of_span hspan

theorem onward_eq (hnow : Instant.inRange now.seconds) (cs : List Char) :
    onward now cs = .ok ((Time.readSpan? cs).bind now.shift?) := by
  rw [onward, readSpan_eq]
  cases hspan : Time.readSpan? cs with
  | none => rfl
  | some s => exact shift_eq hnow (isSpan_of_read hspan)

theorem back_eq (hnow : Instant.inRange now.seconds) (cs : List Char) :
    back now cs = .ok (((Time.readSpan? cs).map (- ·)).bind now.shift?) := by
  rw [back, readSpan_eq]
  cases hspan : Time.readSpan? cs with
  | none => rfl
  | some s => exact shiftBack_eq hnow (isSpan_of_read hspan)

theorem spanAway_eq (hnow : Instant.inRange now.seconds) (cs : List Char) :
    spanAway now cs = .ok ((readShift? cs).bind now.shift?) := by
  unfold spanAway readShift?
  simp only [onward_eq hnow, back_eq hnow]
  grind

end Spans

section Days

variable {c : Clock} {now : Instant} {day shown : Int}

/-- A day off the calendar ends the program. -/
def Abort.ofDay (e : OffCalendar) : Abort := .offCalendar e.day

theorem dayOfCalendar_eq (n : Int) : dayOfCalendar n = (calendarDay n).mapError Abort.ofDay := by
  unfold dayOfCalendar calendarDay
  split <;> rfl

theorem onCalendar_bounds (h : OnCalendar day) : -96465292 ≤ day ∧ day < 95026237 := h

/-- The local times of a day of the calendar. -/
theorem isSpan_of_day (h : OnCalendar day) :
    IsSpan (day * daySeconds) ∧ IsSpan (day * daySeconds + 3600) := by
  have hbounds := onCalendar_bounds h
  unfold IsSpan daySeconds maxSpan
  omega

theorem onCalendar_of_read {cs : List Char} (h : readDay? cs = some day) : OnCalendar day := by
  obtain ⟨p, -, hp⟩ := List.exists_of_findSome?_eq_some h
  obtain ⟨f, -, hf⟩ := Option.bind_eq_some_iff.mp hp
  rw [Option.ite_none_right_eq_some, Option.some.injEq] at hf
  obtain ⟨hvalid, rfl⟩ := hf
  exact onCalendar_of_valid hvalid

theorem isSpan_of_offset (hc : c.WithinDay) {o : Int} (ho : o ∈ c.offsets) :
    IsSpan (-o) ∧ IsSpan o := by
  have hoffset := hc o ho
  unfold IsSpan maxSpan
  unfold daySeconds at hoffset
  omega

theorem dayAt_eq (hc : c.WithinDay) (hnow : Instant.inRange now.seconds) :
    dayAt c now = (calendarDay (c.dayAt now)).mapError Abort.ofDay := by
  have hoffset := (isSpan_of_offset hc (c.listed now.seconds)).2
  rw [dayAt, fit_of_isInt64 (isInt64_add (isSpan_of_inRange hnow).1 hoffset)]
  exact dayOfCalendar_eq _

theorem instantFor_eq (hc : c.WithinDay) (hshown : IsSpan shown) {o : Int} (ho : o ∈ c.offsets) :
    instantFor c shown o =
      .ok (Option.guard (fun t => Instant.inRange t && c.shown t == shown) (shown - o)) := by
  have hback : isInt64 (shown - o) := isInt64_add hshown (isSpan_of_offset hc ho).1
  rw [instantFor, fit_of_isInt64 hback]
  by_cases hin : Instant.inRange (shown - o)
  · have hoffset := (isSpan_of_offset hc (c.listed (shown - o))).2
    have hforth := isInt64_add (isSpan_of_inRange hin).1 hoffset
    simp [Except.bind, Except.map, Option.guard, hin, fit_of_isInt64 hforth, Clock.shown]
  · simp [Except.bind, Option.guard, hin]

theorem mapM_ok {α β : Type} {f : α → Except Abort β} {g : α → β} {as : List α}
    (h : ∀ a ∈ as, f a = .ok (g a)) : as.mapM f = .ok (as.map g) := by
  induction as with
  | nil => rfl
  | cons a as ih =>
    have hrest := ih fun b hb => h b (List.mem_cons_of_mem a hb)
    rw [List.mapM_cons, h a List.mem_cons_self, hrest]
    rfl

theorem firstInstant_eq (hc : c.WithinDay) (hshown : IsSpan shown) :
    firstInstant c shown = .ok (c.firstInstantAt? shown) := by
  have hfilter : ∀ ts : List Int, ts.filter (fun t => Instant.inRange t && c.shown t == shown) =
      ts.filterMap (Option.guard fun t => Instant.inRange t && c.shown t == shown) := fun ts => by
    rw [List.filterMap_eq_filter]
  rw [firstInstant, mapM_ok fun o ho => instantFor_eq hc hshown ho, Clock.firstInstantAt?,
    Clock.instantsAt, hfilter, List.filterMap_map]
  simp [Except.map, List.filterMap_map]

theorem dayStart_eq (hc : c.WithinDay) (hday : OnCalendar day) :
    dayStart c day = .ok (c.start? day) := by
  obtain ⟨hmidnight, hlate⟩ := isSpan_of_day hday
  unfold dayStart Clock.start? Clock.dayStart?
  simp only [fit_of_isInt64 hmidnight.fits, fit_of_isInt64 hlate.fits, firstInstant_eq hc hmidnight,
    firstInstant_eq hc hlate, bind, Except.bind]
  cases c.firstInstantAt? (day * daySeconds) with
  | none => rfl
  | some t => rfl

/-- The day before or after one of the calendar fits, even if the calendar does not have it. -/
theorem neighbourStart_eq (hc : c.WithinDay) (hday : isInt64 day) :
    neighbourStart c day = ((calendarDay day).map c.start?).mapError Abort.ofDay := by
  rw [neighbourStart, fit_of_isInt64 hday]
  simp only [Except.bind, dayOfCalendar_eq]
  by_cases hon : OnCalendar day
  · rw [calendarDay_of_on hon]
    exact dayStart_eq hc hon
  · rw [calendarDay_of_off hon]
    rfl

theorem searchInstant_eq (hc : c.WithinDay) (hnow : Instant.inRange now.seconds) (text : String) :
    searchInstant c text now = (c.searchInstant text now).mapError Abort.ofDay := by
  rw [searchInstant, Clock.searchInstant, dayAt_eq hc hnow]
  by_cases hon : OnCalendar (c.dayAt now)
  · have hfits : isInt64 (c.dayAt now - 1) ∧ isInt64 (c.dayAt now + 1) := by
      have hbounds := onCalendar_bounds hon
      rw [isInt64_iff, isInt64_iff]
      unfold minInt64 maxInt64
      omega
    have htoday : Except.mapError Abort.ofDay (.ok (c.dayAt now)) = .ok (c.dayAt now) := rfl
    rw [calendarDay_of_on hon, htoday]
    generalize lowerChars (trimChars text.toList) = cs
    simp only [Except.bind, apply_ite (Except.mapError Abort.ofDay), dayStart_eq hc hon,
      neighbourStart_eq hc hfits.1, neighbourStart_eq hc hfits.2]
    cases hread : readDay? cs with
    | some day =>
      simp only [dayStart_eq hc (onCalendar_of_read hread)]
      rfl
    | none =>
      simp only [spanAway_eq hnow]
      rfl
  · rw [calendarDay_of_off hon]
    rfl

theorem searchDay_eq (hc : c.WithinDay) (hnow : Instant.inRange now.seconds) (text : String) :
    searchDay c text now = (c.searchDay text now).mapError Abort.ofDay := by
  rw [searchDay, Clock.searchDay, searchInstant_eq hc hnow]
  cases c.searchInstant text now with
  | error e => rfl
  | ok t? => rfl

end Days

end Newsfeed.Machine
