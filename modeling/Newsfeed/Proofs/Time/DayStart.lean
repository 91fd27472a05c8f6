import Newsfeed.Proofs.Time.Days
import Newsfeed.Proofs.Time.Offsets

/-!
Where a day starts on a clock. A date in a search stands for the start of its day: for the first
instant that shows midnight, or one o'clock where the clock skips midnight.
-/

namespace Newsfeed.Time

open Newsfeed.Text

/-- The calendar has the day. -/
def OnCalendar (n : Int) : Prop := yearStart firstYear ≤ n ∧ n < yearStart (lastYear + 1)

instance (n : Int) : Decidable (OnCalendar n) := inferInstanceAs (Decidable (_ ∧ _))

theorem onCalendar_iff_year {n : Int} :
    OnCalendar n ↔ firstYear ≤ yearOfDay n ∧ yearOfDay n ≤ lastYear := by
  rw [OnCalendar, yearStart_le_iff, lt_yearStart_iff, Int.lt_add_one_iff]

theorem calendarDay_of_on {n : Int} (h : OnCalendar n) : calendarDay n = .ok n := if_pos h

theorem calendarDay_of_off {n : Int} (h : ¬OnCalendar n) : calendarDay n = .error ⟨n⟩ := if_neg h

theorem onCalendar_of_valid {d : Date} (h : d.isValid) : OnCalendar d.toDay := by
  have hin := (Date.exists_of_valid h).toDay_lt
  simp only [Date.isValid, Bool.and_eq_true, decide_eq_true_eq] at h
  obtain ⟨⟨⟨hfirst, hlast⟩, -⟩, -⟩ := h
  have hbefore := yearStart_mono hfirst
  have hafter := yearStart_mono (Int.add_le_add_right hlast 1)
  unfold OnCalendar
  omega

/-- In a year between the first and the last, a day has neighbours. -/
theorem Date.Exists.neighbours {d : Date} (h : d.Exists) (hfirst : firstYear < d.year)
    (hlast : d.year < lastYear) : OnCalendar (d.toDay - 1) ∧ OnCalendar (d.toDay + 1) := by
  have hin := h.toDay_lt
  have hbefore := yearStart_mono (show firstYear + 1 ≤ d.year from hfirst)
  have hafter := yearStart_mono (show d.year + 1 ≤ lastYear from hlast)
  have hends : yearStart firstYear < yearStart (firstYear + 1) ∧
      yearStart lastYear < yearStart (lastYear + 1) := by decide
  unfold OnCalendar
  omega

namespace Clock

variable {c : Clock} {s t o day : Int}

/-- No offset is as long as a day. -/
def WithinDay (c : Clock) : Prop := ∀ o ∈ c.offsets, -daySeconds < o ∧ o < daySeconds

theorem offsets_lt_day (r : Region) : ∀ o ∈ r.offsets, -daySeconds < o ∧ o < daySeconds := by
  cases r <;> decide

/-- The clock of every zone that an owner can have. -/
theorem withinDay_of_read {text : String} {z : Zone} (h : Zone.read? text = some z) :
    z.clock.WithinDay := by
  unfold Zone.read? at h
  split at h
  · rename_i o hoffset
    cases h
    rintro p hp
    rw [List.mem_singleton.mp hp]
    exact readOffset_lt_day hoffset
  · obtain ⟨r, -, rfl⟩ := Option.map_eq_some_iff.mp h
    exact offsets_lt_day r

/-- The instant is the first at which the clock shows the local time. -/
structure FirstShows (c : Clock) (s t : Int) : Prop where
  shows : c.shown t = s
  first : ∀ u, c.shown u = s → t ≤ u

/-- The instant is the first that shows midnight of the day, or one o'clock where none shows
midnight. -/
inductive Starts (c : Clock) (day t : Int) : Prop
  | midnight (first : c.FirstShows (day * daySeconds) t)
  | anHourLate (skipped : ∀ u, c.shown u ≠ day * daySeconds)
      (first : c.FirstShows (day * daySeconds + 3600) t)

theorem mem_instantsAt : t ∈ c.instantsAt s ↔ Instant.inRange t ∧ c.shown t = s := by
  rw [instantsAt, List.mem_filter, Bool.and_eq_true, beq_iff_eq, and_iff_right_iff_imp]
  rintro ⟨-, hshown⟩
  refine List.mem_map.mpr ⟨c.offsetAt t, c.listed t, ?_⟩
  rw [← hshown, shown]
  omega

section InRange

variable (hin : ∀ u, c.shown u = s → Instant.inRange u)
include hin

theorem firstInstantAt_iff : c.firstInstantAt? s = some t ↔ c.FirstShows s t := by
  rw [firstInstantAt?, List.min?_eq_some_iff]
  constructor
  · rintro ⟨hmem, hleast⟩
    exact ⟨(mem_instantsAt.mp hmem).2, fun u hu => hleast u (mem_instantsAt.mpr ⟨hin u hu, hu⟩)⟩
  · rintro ⟨hshows, hfirst⟩
    exact ⟨mem_instantsAt.mpr ⟨hin t hshows, hshows⟩, fun u hu => hfirst u (mem_instantsAt.mp hu).2⟩

theorem firstInstantAt_none : c.firstInstantAt? s = none ↔ ∀ u, c.shown u ≠ s := by
  rw [firstInstantAt?, List.min?_eq_none_iff, List.eq_nil_iff_forall_not_mem]
  exact forall_congr' fun u => not_congr
    ⟨fun hu => (mem_instantsAt.mp hu).2, fun hu => mem_instantsAt.mpr ⟨hin u hu, hu⟩⟩

end InRange

/-- The instants that show the day are within the years that have dates. -/
def InReach (c : Clock) (day : Int) : Prop :=
  ∀ u, c.shown u / daySeconds = day → Instant.inRange u

theorem InReach.at {k : Int} (hin : c.InReach day) (hk : 0 ≤ k ∧ k < daySeconds) :
    ∀ u, c.shown u = day * daySeconds + k → Instant.inRange u := by
  intro u hu
  refine hin u ?_
  unfold daySeconds at *
  omega

theorem InReach.midnight (hin : c.InReach day) :
    ∀ u, c.shown u = day * daySeconds → Instant.inRange u := by
  have hat := hin.at (k := 0) (by decide)
  rwa [Int.add_zero] at hat

theorem dayStart_iff (hin : c.InReach day) : c.dayStart? day = some t ↔ c.Starts day t := by
  have hlate := hin.at (k := 3600) (by decide)
  rw [dayStart?]
  cases hfirst : c.firstInstantAt? (day * daySeconds) with
  | some u =>
    have hshows := (firstInstantAt_iff hin.midnight).mp hfirst
    rw [Option.orElse_some, Option.some.injEq]
    constructor
    · rintro rfl
      exact .midnight hshows
    · rintro (hthere | ⟨hskipped, -⟩)
      · exact Int.le_antisymm (hshows.first t hthere.shows) (hthere.first u hshows.shows)
      · exact absurd hshows.shows (hskipped u)
  | none =>
    have hskipped := (firstInstantAt_none hin.midnight).mp hfirst
    rw [Option.orElse_none, firstInstantAt_iff hlate]
    constructor
    · exact .anHourLate hskipped
    · rintro (hthere | ⟨-, hthere⟩)
      · exact absurd hthere.shows (hskipped t)
      · exact hthere

theorem dayStart_none (hin : c.InReach day) : c.dayStart? day = none ↔
    ∀ u, c.shown u ≠ day * daySeconds ∧ c.shown u ≠ day * daySeconds + 3600 := by
  have hlate := hin.at (k := 3600) (by decide)
  rw [dayStart?, Option.orElse_eq_or, Option.or_eq_none_iff, firstInstantAt_none hin.midnight,
    firstInstantAt_none hlate, forall_and]

/-- A day starts on that day. -/
theorem Starts.dayAt (h : c.Starts day t) : c.dayAt ⟨t, 0⟩ = day := by
  rw [Clock.dayAt]
  rcases h with hshows | ⟨-, hshows⟩
  · rw [hshows.shows]
    unfold daySeconds
    omega
  · rw [hshows.shows]
    unfold daySeconds
    omega

theorem inReach_of_within (hc : c.WithinDay) (hbefore : OnCalendar (day - 1))
    (hafter : OnCalendar (day + 1)) : c.InReach day := by
  intro u hu
  have hoffset := hc _ (c.listed u)
  rw [shown] at hu
  rw [Instant.inRange_iff]
  have hfirst := hbefore.1
  have hlast := hafter.2
  unfold daySeconds at *
  omega

/-- With one offset for all time a day starts at midnight, which is earlier than in UTC if the
offset is to the east. -/
theorem starts_of_fixed (ho : ∀ t, c.offsetAt t = o) : c.Starts day (day * daySeconds - o) := by
  refine .midnight ⟨?_, fun u hu => ?_⟩
  · rw [shown, ho]
    omega
  · rw [shown, ho] at hu
    omega

theorem day_of_fixed (hc : c.WithinDay) (ho : ∀ t, c.offsetAt t = o) :
    (day * daySeconds - o) / daySeconds = if 0 < o then day - 1 else day := by
  have hoffset := hc _ (c.listed 0)
  rw [ho] at hoffset
  unfold daySeconds at *
  split <;> omega

section Search

variable {now : Instant} {text : String} {cs : List Char} {d : Date}

/-- Where the clock is off the calendar nothing is found, and not even a text is looked at. -/
theorem searchDay_off (hnow : ¬OnCalendar (c.dayAt now)) (text : String) :
    c.searchDay text now = .error ⟨c.dayAt now⟩ := by
  rw [searchDay, searchInstant, calendarDay_of_off hnow]
  rfl

/-- The words for a day, with how far it is from the day that the clock shows. -/
def dayWords : List (String × Int) := [("yesterday", -1), ("today", 0), ("tomorrow", 1)]

/-- A text with a digit in it is none of the words. -/
theorem searchInstant_of_digit (hnow : OnCalendar (c.dayAt now))
    (htext : lowerChars (trimChars text.toList) = cs) (hdigit : ∃ b ∈ cs, b.isDigit) :
    c.searchInstant text now = match readDay? cs with
      | some day => .ok (c.start? day)
      | none => .ok ((readShift? cs).bind now.shift?) := by
  have hword {word : String} (hletters : word.toList.any Char.isDigit = false) :
      cs ≠ word.toList := by
    rintro rfl
    rw [← Bool.not_eq_true, List.any_eq_true] at hletters
    exact hletters hdigit
  have hnil : cs ≠ [] := by
    rintro rfl
    obtain ⟨b, hb, -⟩ := hdigit
    cases hb
  rw [searchInstant, htext, calendarDay_of_on hnow]
  simp only [Except.bind]
  rw [if_neg hnil, if_neg (hword (by decide)), if_neg (hword (by decide)),
    if_neg (hword (by decide))]
  exact if_neg (hword (by decide))

theorem searchDay_written (hnow : OnCalendar (c.dayAt now))
    (htext : WritesDay (trimChars text.toList) d) (hvalid : d.isValid) :
    c.searchDay text now = .ok ((c.start? d.toDay).map fun t => t.date.text) := by
  rw [searchDay, searchInstant_of_digit hnow htext.lowered htext.exists_digit, htext.read hvalid]
  rfl

/-- The text of a day of the calendar is found as that day. -/
theorem searchDay_text {n : Int} (hnow : OnCalendar (c.dayAt now)) (hn : OnCalendar n) :
    c.searchDay (Date.ofDay n).text now = .ok ((c.start? n).map fun t => t.date.text) := by
  obtain ⟨hexists, hday⟩ := toDay_ofDay n
  have hwrites := hexists.writesText
  have htext : WritesDay (trimChars (Date.ofDay n).text.toList) (Date.ofDay n) := by
    rwa [hwrites.trimmed]
  rw [searchDay_written hnow htext (hexists.valid (onCalendar_iff_year.mp hn)), hday]

theorem searchDay_word {word : String} {k : Int} (hword : (word, k) ∈ dayWords)
    (hnow : OnCalendar (c.dayAt now)) (htext : lowerChars (trimChars text.toList) = word.toList) :
    c.searchDay text now =
      ((calendarDay (c.dayAt now + k)).map c.start?).map (·.map fun t => t.date.text) := by
  rw [searchDay, searchInstant, htext, calendarDay_of_on hnow]
  simp only [dayWords, List.mem_cons, Prod.mk.injEq, List.not_mem_nil, or_false] at hword
  rcases hword with ⟨rfl, rfl⟩ | ⟨rfl, rfl⟩ | ⟨rfl, rfl⟩
  · simp [Except.bind, Int.sub_eq_add_neg]
  · simp [Except.bind, Except.map, calendarDay_of_on hnow]
  · simp [Except.bind]

end Search

end Clock

/-- What is found for a day is the UTC day of the instant at which the day starts, and none only
where neither midnight nor one o'clock is shown. With one offset for all time it is the day before
if the offset is to the east, and else the same day. -/
structure Clock.FindsStart (c : Clock) (day : Int) (answer : Option String) : Prop where
  lost : answer = none ↔
    ∀ t, c.shown t ≠ day * daySeconds ∧ c.shown t ≠ day * daySeconds + 3600
  found : ∀ text, answer = some text ↔
    ∃ t, c.Starts day t ∧ c.dayAt ⟨t, 0⟩ = day ∧ text = (Date.ofDay (t / daySeconds)).text
  fixed : ∀ o, (∀ t, c.offsetAt t = o) →
    answer = some (Date.ofDay (if 0 < o then day - 1 else day)).text

theorem Clock.findsStart {c : Clock} {day : Int} (hc : c.WithinDay) (hbefore : OnCalendar (day - 1))
    (hafter : OnCalendar (day + 1)) :
    c.FindsStart day ((c.start? day).map fun t => t.date.text) := by
  have hin := inReach_of_within hc hbefore hafter
  constructor
  · rw [Option.map_eq_none_iff, start?, Option.map_eq_none_iff, dayStart_none hin]
  · intro text
    simp only [start?, Option.map_map, Option.map_eq_some_iff, dayStart_iff hin]
    refine exists_congr fun t => and_congr_right fun hstarts => ?_
    rw [and_iff_right hstarts.dayAt]
    exact eq_comm
  · intro o ho
    rw [start?, Option.map_map, (dayStart_iff hin).mpr (starts_of_fixed ho), ← day_of_fixed hc ho]
    rfl

/-- A search with a day in it, however it is written, looks for the UTC day of the instant at which
that day starts on the clock. The words for a day mean the one that the clock shows and its
neighbours. Where the clock, or the day that is meant, is off the calendar, there is no answer. -/
theorem day_is_found_where_it_starts (c : Clock) (hc : c.WithinDay) (now : Instant) :
    (¬OnCalendar (c.dayAt now) → ∀ text, c.searchDay text now = .error ⟨c.dayAt now⟩) ∧
    (OnCalendar (c.dayAt now) →
      (∀ text d, WritesDay (trimChars text.toList) d → d.Exists → firstYear < d.year →
        d.year < lastYear →
          ∃ found, c.searchDay text now = .ok found ∧ c.FindsStart d.toDay found) ∧
      ∀ text word k, (word, k) ∈ Clock.dayWords →
        lowerChars (trimChars text.toList) = word.toList →
          (OnCalendar (c.dayAt now + k) →
            c.searchDay text now = c.searchDay (Date.ofDay (c.dayAt now + k)).text now) ∧
          (¬OnCalendar (c.dayAt now + k) →
            c.searchDay text now = .error ⟨c.dayAt now + k⟩)) := by
  refine ⟨Clock.searchDay_off, fun hnow => ⟨?_, ?_⟩⟩
  · intro text d htext hexists hfirst hlast
    have hvalid := hexists.valid ⟨Int.le_of_lt hfirst, Int.le_of_lt hlast⟩
    obtain ⟨hbefore, hafter⟩ := hexists.neighbours hfirst hlast
    exact ⟨_, Clock.searchDay_written hnow htext hvalid, Clock.findsStart hc hbefore hafter⟩
  · intro text word k hword htext
    rw [Clock.searchDay_word hword hnow htext]
    constructor
    · intro hk
      rw [Clock.searchDay_text hnow hk, calendarDay_of_on hk]
      rfl
    · intro hk
      rw [calendarDay_of_off hk]
      rfl

/-- The clock of Santiago was set from midnight to one o'clock on 8 September 2024. -/
def santiago : Clock := (Zone.named .santiago).clock

/-- Noon in UTC on 15 March 2024. -/
def noon : Instant := ⟨19797 * daySeconds + 43200, 0⟩

/-- The day without a midnight is found where one o'clock is, in UTC on the same day. -/
theorem day_is_found_in_santiago :
    santiago.searchDay " 2024-09-08 " noon = .ok (some "2024-09-08") ∧
      (∃ t, santiago.Starts (Date.mk 2024 9 8).toDay t ∧
        "2024-09-08" = (Date.ofDay (t / daySeconds)).text) ∧
      santiago.searchDay "Tomorrow" noon = santiago.searchDay "2024-03-16" noon := by
  have hzone : Zone.read? "America/Santiago" = some (.named .santiago) := by decide +kernel
  have hnow : OnCalendar (santiago.dayAt noon) := by decide
  have hexists : (Date.mk 2024 9 8).Exists := ⟨by decide, by decide, by decide, by decide⟩
  have hwrites : WritesDay (trimChars " 2024-09-08 ".toList) ⟨2024, 9, 8⟩ := by
    have htext : trimChars " 2024-09-08 ".toList = (Date.mk 2024 9 8).text.toList := by
      decide +kernel
    rw [htext]
    exact hexists.writesText
  have hsearch : santiago.searchDay " 2024-09-08 " noon = .ok (some "2024-09-08") := by
    decide +kernel
  obtain ⟨hday, hword⟩ :=
    (day_is_found_where_it_starts santiago (Clock.withinDay_of_read hzone) noon).2 hnow
  obtain ⟨found, hfound, hstart⟩ := hday " 2024-09-08 " _ hwrites hexists (by decide) (by decide)
  refine ⟨hsearch, ?_, ?_⟩
  · cases hsearch.symm.trans hfound
    obtain ⟨t, hstarts, -, htext⟩ := (hstart.found _).mp rfl
    exact ⟨t, hstarts, htext⟩
  · have htext : (Date.ofDay (santiago.dayAt noon + 1)).text = "2024-03-16" := by decide +kernel
    have hnext := (hword "Tomorrow" "tomorrow" 1 (by decide) (by decide +kernel)).1 (by decide)
    rwa [htext] at hnext

/-- Half an hour before the calendar ends in UTC. -/
def lastHalfHour : Instant := ⟨yearStart (lastYear + 1) * daySeconds - 1800, 0⟩

/-- An hour to the east the last half hour of the calendar is over, and then no day is found,
although it starts where it always does. -/
theorem no_day_at_the_end :
    lastHalfHour.Exists ∧ WritesDay "2024-01-31".toList ⟨2024, 1, 31⟩ ∧
      (Zone.fixed 3600).clock.Starts (Date.mk 2024 1 31).toDay (19753 * daySeconds - 3600) ∧
      ∀ found, (Zone.fixed 3600).clock.searchDay "2024-01-31" lastHalfHour ≠ .ok found := by
  have hexists : (Date.mk 2024 1 31).Exists := ⟨by decide, by decide, by decide, by decide⟩
  have htext : (Date.mk 2024 1 31).text = "2024-01-31" := by decide +kernel
  have hday : (Date.mk 2024 1 31).toDay = 19753 := by decide +kernel
  refine ⟨⟨⟨by decide, by decide⟩, by decide⟩, htext ▸ hexists.writesText, ?_, fun found => ?_⟩
  · rw [hday]
    exact Clock.starts_of_fixed fun _ => rfl
  · rw [Clock.searchDay_off (by decide)]
    exact nofun

end Newsfeed.Time
