import Newsfeed.Proofs.Text.Trimmed
import Newsfeed.Proofs.Time.DayStart

/-!
Spans of time in a search: an amount of a unit, back from now or on from it. What is found is the
UTC day of the instant that is so far away, whatever the clock shows.
-/

namespace Newsfeed.Time

open Newsfeed.Text

/-- The words for units of time, with their seconds. -/
def unitWords : List (String × Int) :=
  [("min", 60), ("minute", 60), ("hour", 3600), ("h", 3600), ("day", 86400), ("d", 86400),
   ("week", 604800), ("w", 604800), ("month", 2592000), ("year", 31536000), ("y", 31536000)]

/-- A way to write an amount of a unit: digits, blanks or none, and the word for the unit with any
number of `s` at its end. -/
inductive WritesSpan : List Char → Nat → Int → Prop
  | mk {ds gap : List Char} {n : Nat} {word : String} {unit : Int} (plural : Nat)
      (amount : Spells ds n) (blank : ∀ c ∈ gap, isBlank c) (named : (word, unit) ∈ unitWords) :
      WritesSpan (ds ++ (gap ++ (word.toList ++ List.replicate plural 's'))) n unit

/-- The ways to write a span of time, with its amount and the seconds of its unit, which are
negative if it goes back. -/
inductive WritesShift : List Char → Nat → Int → Prop
  | ago {cs gap : List Char} {n : Nat} {unit : Int} (span : WritesSpan cs n unit)
      (blank : ∀ c ∈ gap, isBlank c) : WritesShift (cs ++ (gap ++ "ago".toList)) n (-unit)
  | minus {cs gap : List Char} {n : Nat} {unit : Int} (blank : ∀ c ∈ gap, isBlank c)
      (span : WritesSpan cs n unit) : WritesShift ('-' :: (gap ++ cs)) n (-unit)
  | bare {cs : List Char} {n : Nat} {unit : Int} (span : WritesSpan cs n unit) :
      WritesShift cs n unit
  | plus {cs gap : List Char} {n : Nat} {unit : Int} (blank : ∀ c ∈ gap, isBlank c)
      (span : WritesSpan cs n unit) : WritesShift ('+' :: (gap ++ cs)) n unit

/-- An amount of a unit with both a sign and `ago`. -/
inductive WritesBoth : List Char → Prop
  | mk {sign : Char} {cs gap gap' : List Char} {n : Nat} {unit : Int}
      (signed : sign = '+' ∨ sign = '-') (blank : ∀ c ∈ gap, isBlank c)
      (span : WritesSpan cs n unit) (blank' : ∀ c ∈ gap', isBlank c) :
      WritesBoth (sign :: (gap ++ (cs ++ (gap' ++ "ago".toList))))

section Units

variable {word : String} {unit : Int}

theorem unitSeconds_plural (cs : List Char) (plural : Nat) :
    unitSeconds? (cs ++ List.replicate plural 's') = unitSeconds? cs := by
  have hcut : (cs ++ List.replicate plural 's').reverse.dropWhile (· = 's') =
      cs.reverse.dropWhile (· = 's') := by
    rw [List.reverse_append, List.reverse_replicate]
    exact List.dropWhile_append_of_pos fun c hc => by simp [List.eq_of_mem_replicate hc]
  simp only [unitSeconds?, hcut]

theorem unitSeconds_word : ∀ p ∈ unitWords, unitSeconds? p.1.toList = some p.2 := by
  decide +kernel

theorem unitWords_ends : ∀ p ∈ unitWords,
    (p.1.toList.head?.any fun c => !isDayChar c) ∧
      p.1.toList.getLast?.any fun c => !isBlank c && c != 'o' := by
  decide +kernel

/-- A unit begins with a letter. -/
theorem unit_head (named : (word, unit) ∈ unitWords) (rest : List Char) :
    ∃ c tail, word.toList ++ rest = c :: tail ∧ isDayChar c = false := by
  obtain ⟨c, hc, hletter⟩ := (Option.any_eq_true _ _).mp (unitWords_ends _ named).1
  obtain ⟨tail, hword⟩ := List.head?_eq_some_iff.mp hc
  exact ⟨c, tail ++ rest, congrArg (· ++ rest) hword, by simpa using hletter⟩

/-- It ends with a letter that is not the last one of `ago`. -/
theorem unit_last (named : (word, unit) ∈ unitWords) (plural : Nat) :
    ∀ c ∈ (word.toList ++ List.replicate plural 's').getLast?, isBlank c = false ∧ c ≠ 'o' := by
  obtain ⟨b, hb, hletter⟩ := (Option.any_eq_true _ _).mp (unitWords_ends _ named).2
  intro c hc
  cases plural with
  | zero =>
    rw [List.replicate_zero, List.append_nil] at hc
    obtain rfl := Option.mem_unique hb hc
    simpa using hletter
  | succ plural =>
    rw [List.replicate_succ', ← List.append_assoc, List.getLast?_concat] at hc
    cases hc
    decide

end Units

section Written

variable {cs gap gap' : List Char} {n : Nat} {unit : Int}

/-- The seconds of an amount of units, if neither the amount nor the span is too large. -/
def spanOf (n : Nat) (unit : Int) : Option Int :=
  if (n : Int) ≤ maxInt64 then span? unit n else none

theorem span_neg (unit k : Int) : span? (-unit) k = (span? unit k).map (- ·) := by
  unfold span?
  rw [Int.neg_mul]
  split <;> split <;> first | rfl | omega

theorem map_neg_spanOf : (spanOf n unit).map (- ·) = spanOf n (-unit) := by
  rw [spanOf, spanOf, span_neg]
  split <;> rfl

theorem isDigit_of_isBlank {c : Char} (h : isBlank c) : c.isDigit = false := by
  rw [← Bool.not_eq_true]
  intro hdigit
  rw [isBlank_of_isDigit hdigit] at h
  cases h

namespace WritesSpan

theorem exists_cons (h : WritesSpan cs n unit) : ∃ c rest, cs = c :: rest ∧ c.isDigit := by
  cases h with
  | mk plural amount =>
    obtain ⟨c, ds, rfl, hdigit⟩ := amount.exists_cons
    exact ⟨c, _, rfl, hdigit⟩

theorem last (h : WritesSpan cs n unit) : ∀ c ∈ cs.getLast?, isBlank c = false ∧ c ≠ 'o' := by
  cases h with
  | mk plural amount blank named =>
    obtain ⟨b, tail, hunit, -⟩ := unit_head named (List.replicate plural 's')
    have hlast := unit_last named plural
    rw [hunit] at hlast ⊢
    rwa [List.getLast?_append_of_ne_nil _ (by simp), List.getLast?_append_of_ne_nil _ (by simp)]

/-- With a letter in it nothing is read as a day. -/
theorem readDay (h : WritesSpan cs n unit) (front back : List Char) :
    readDay? (front ++ (cs ++ back)) = none := by
  cases h with
  | mk plural amount blank named =>
    obtain ⟨c, tail, hunit, hletter⟩ := unit_head named (List.replicate plural 's')
    rw [hunit, Option.eq_none_iff_forall_ne_some]
    intro day hday
    have hmem := readDay_mem hday (c := c) (by simp)
    rw [hletter] at hmem
    cases hmem

theorem readSpan (h : WritesSpan cs n unit) (hgap : ∀ c ∈ gap, isBlank c) :
    readSpan? (gap ++ cs) = spanOf n unit := by
  cases h with
  | @mk ds gap' n word unit plural amount blank named =>
    obtain ⟨c, tail, hunit, hletter⟩ := unit_head named (List.replicate plural 's')
    obtain ⟨hdigit, hblank⟩ := plain_of_not_dayChar hletter
    have hread : unitSeconds? (c :: tail) = some unit := by
      rw [← hunit, unitSeconds_plural, unitSeconds_word (word, unit) named]
    have htrim : trimChars (gap' ++ (c :: tail)) = c :: tail := by
      have hlast := unit_last named plural
      rw [hunit] at hlast
      have hends : IsTrimmed (c :: tail) := ⟨by simpa using hblank, fun b hb => (hlast b hb).1⟩
      have hbetween : trimChars (gap' ++ (c :: tail ++ [])) = c :: tail :=
        trimChars_between blank nofun hends
      rwa [List.append_nil] at hbetween
    have hbehind : NoDigitFirst (gap' ++ (c :: tail)) := by
      cases gap' with
      | nil => exact noDigitFirst_cons hdigit tail
      | cons b gap' =>
        exact noDigitFirst_cons (isDigit_of_isBlank (blank b List.mem_cons_self)) _
    have hstart : trimStart (gap ++ (ds ++ (gap' ++ c :: tail))) = ds ++ (gap' ++ c :: tail) :=
      (List.dropWhile_append_of_pos hgap).trans (amount.trimStart _)
    rw [hunit]
    simp only [readSpan?, hstart, takeWhile_digits amount.digits hbehind, List.drop_left, htrim,
      hread, amount.readInt64, spanOf]
    split <;> rfl

theorem readBare (h : WritesSpan cs n unit) : readSpan? cs = spanOf n unit := by
  have hread : readSpan? ([] ++ cs) = spanOf n unit := h.readSpan nofun
  exact hread

end WritesSpan

theorem stripAgo_behind (hlast : ∀ c ∈ cs.getLast?, isBlank c = false)
    (hgap : ∀ c ∈ gap, isBlank c) : stripAgo? (cs ++ (gap ++ "ago".toList)) = some cs := by
  have hsuffix : "ago".toList.isSuffixOf (cs ++ gap ++ "ago".toList) := by
    rw [List.isSuffixOf_iff_suffix]
    exact List.suffix_append _ _
  have hlength : (cs ++ gap ++ "ago".toList).length - 3 = (cs ++ gap).length := by
    rw [List.length_append]
    rfl
  rw [← List.append_assoc, stripAgo?, if_pos hsuffix, hlength, List.take_left,
    trimEnd_blanks hlast hgap]

theorem stripAgo_none (hlast : ∀ c ∈ cs.getLast?, c ≠ 'o') : stripAgo? cs = none := by
  refine if_neg fun hsuffix => ?_
  obtain ⟨front, rfl⟩ := List.isSuffixOf_iff_suffix.mp hsuffix
  refine hlast 'o' ?_ rfl
  rw [List.getLast?_append_of_ne_nil _ (by decide)]
  rfl

section Signed

variable {c : Char} {rest : List Char}

theorem readShift_ago (hdigit : c.isDigit) (hstrip : stripAgo? cs = some (c :: rest)) :
    readShift? cs = (readSpan? (c :: rest)).map (- ·) := by
  unfold readShift?
  rw [hstrip]
  split
  · rename_i heq
    cases heq
    cases hdigit
  · rename_i heq
    cases heq
    cases hdigit
  · rename_i heq
    rw [Option.some.inj heq]
  · rename_i heq
    cases heq

theorem readShift_bare (hdigit : c.isDigit) (hstrip : stripAgo? (c :: rest) = none) :
    readShift? (c :: rest) = readSpan? (c :: rest) := by
  unfold readShift?
  rw [hstrip]
  simp only
  split
  · rename_i heq
    cases heq
    cases hdigit
  · rename_i heq
    cases heq
    cases hdigit
  · rfl

theorem readShift_minus (hstrip : stripAgo? ('-' :: rest) = none) :
    readShift? ('-' :: rest) = (readSpan? rest).map (- ·) := by
  unfold readShift?
  rw [hstrip]
  rfl

theorem readShift_plus (hstrip : stripAgo? ('+' :: rest) = none) :
    readShift? ('+' :: rest) = readSpan? rest := by
  unfold readShift?
  rw [hstrip]
  rfl

/-- A sign and `ago` do not go together. -/
theorem readShift_both {sign : Char} (hsign : sign = '+' ∨ sign = '-')
    (hstrip : stripAgo? cs = some (sign :: rest)) : readShift? cs = none := by
  unfold readShift?
  rw [hstrip]
  rcases hsign with rfl | rfl <;> rfl

end Signed

theorem WritesSpan.last_behind (h : WritesSpan cs n unit) (front : List Char) :
    ∀ c ∈ (front ++ cs).getLast?, isBlank c = false ∧ c ≠ 'o' := by
  obtain ⟨c, rest, hcs, -⟩ := h.exists_cons
  rw [List.getLast?_append_of_ne_nil _ (by simp [hcs])]
  exact h.last

theorem WritesSpan.noAgo (h : WritesSpan cs n unit) (front : List Char) :
    stripAgo? (front ++ cs) = none :=
  stripAgo_none fun c hc => (h.last_behind front c hc).2

/-- Each way to write a span of time is read as that span, if the amount and the span are not too
large. -/
theorem WritesShift.read (h : WritesShift cs n unit) : readShift? cs = spanOf n unit := by
  cases h with
  | ago span blank =>
    have hread := span.readBare
    have hstrip := stripAgo_behind (fun b hb => (span.last b hb).1) blank
    obtain ⟨c, rest, rfl, hdigit⟩ := span.exists_cons
    rw [readShift_ago hdigit hstrip, hread, map_neg_spanOf]
  | @minus cs gap n unit blank span =>
    have hstrip : stripAgo? ('-' :: (gap ++ cs)) = none := span.noAgo ('-' :: gap)
    rw [readShift_minus hstrip, span.readSpan blank, map_neg_spanOf]
  | bare span =>
    have hread := span.readBare
    have hstrip := span.noAgo []
    obtain ⟨c, rest, rfl, hdigit⟩ := span.exists_cons
    exact (readShift_bare hdigit hstrip).trans hread
  | @plus cs gap n unit blank span =>
    have hstrip : stripAgo? ('+' :: (gap ++ cs)) = none := span.noAgo ('+' :: gap)
    rw [readShift_plus hstrip, span.readSpan blank]

theorem WritesBoth.read (h : WritesBoth cs) : readShift? cs = none := by
  cases h with
  | @mk sign cs gap gap' n unit signed blank span blank' =>
    have hlast := span.last_behind (sign :: gap)
    have hstrip := stripAgo_behind (fun b hb => (hlast b hb).1) blank'
    rw [List.append_assoc, List.cons_append] at hstrip
    exact readShift_both signed hstrip

/-- An amount of a unit stands in it. -/
theorem WritesBoth.exists_span (h : WritesBoth cs) :
    ∃ front ds back n k, cs = front ++ (ds ++ back) ∧ WritesSpan ds n k := by
  cases h with
  | @mk sign _ gap _ _ _ _ _ span => exact ⟨sign :: gap, _, _, _, _, rfl, span⟩

theorem WritesShift.exists_span (h : WritesShift cs n unit) :
    ∃ front ds back k, cs = front ++ (ds ++ back) ∧ WritesSpan ds n k := by
  cases h with
  | ago span => exact ⟨[], _, _, _, rfl, span⟩
  | @minus _ gap _ _ blank span => exact ⟨'-' :: gap, _, [], _, by simp, span⟩
  | bare span => exact ⟨[], _, [], _, by simp, span⟩
  | @plus _ gap _ _ blank span => exact ⟨'+' :: gap, _, [], _, by simp, span⟩

end Written

section Search

variable {c : Clock} {now : Instant} {text : String} {cs front back : List Char} {n : Nat}
  {unit : Int}

/-- A text with an amount of a unit in it is none of the words and no day. -/
theorem Clock.searchDay_span (hnow : OnCalendar (c.dayAt now)) (h : WritesSpan cs n unit)
    (htext : lowerChars (trimChars text.toList) = front ++ (cs ++ back)) :
    c.searchDay text now =
      .ok (((readShift? (front ++ (cs ++ back))).bind now.shift?).map fun t => t.date.text) := by
  have hdigit : ∃ b ∈ front ++ (cs ++ back), b.isDigit := by
    obtain ⟨b, rest, rfl, hb⟩ := h.exists_cons
    exact ⟨b, by simp, hb⟩
  rw [searchDay, searchInstant_of_digit hnow htext hdigit, h.readDay front back]
  rfl

/-- The UTC day so many units away is there if neither the amount nor the span is too large and the
instant is within the years that have dates. -/
theorem shifted_date (now : Instant) (n : Nat) (unit : Int) :
    ((spanOf n unit).bind now.shift?).map (fun t => t.date.text) =
      if (n : Int) ≤ maxInt64 ∧ (-maxSpan ≤ unit * n ∧ unit * n ≤ maxSpan) ∧
          Instant.inRange (now.shiftStart (unit * n) + unit * n) then
        some (Date.ofDay ((now.shiftStart (unit * n) + unit * n) / daySeconds)).text
      else none := by
  unfold spanOf span?
  by_cases hn : (n : Int) ≤ maxInt64
  · by_cases hspan : -maxSpan ≤ unit * n ∧ unit * n ≤ maxSpan
    · rw [if_pos hn, if_pos hspan, Option.bind_some]
      cases hshift : now.shift? (unit * n) with
      | none =>
        have hout := Instant.shift_eq_none.mp hshift
        rw [if_neg fun h => hout h.2.2, Option.map_none]
      | some t =>
        have hin : Instant.inRange (now.shiftStart (unit * n) + unit * n) := by
          by_contra hout
          rw [Instant.shift_eq_none.mpr hout] at hshift
          cases hshift
        obtain ⟨hseconds, -⟩ := Instant.shift_cases hshift
        rw [if_pos ⟨hn, hspan, hin⟩, Option.map_some, Instant.date, Instant.day, hseconds]
    · rw [if_pos hn, if_neg hspan, if_neg fun h => hspan h.2.1]
      rfl
  · rw [if_neg hn, if_neg fun h => hn h.1]
    rfl

end Search

/-- A search with a span of time in it looks for the UTC day so far away from now, whatever the
clock shows: `3 days ago` and `-3 days` for one, `3 days` and `+3 days` for one. There is none where
the amount, the span or the instant is out of range, and for a sign with `ago`. Where the clock is
off the calendar, there is no answer. -/
theorem span_is_counted_from_now (c : Clock) (now : Instant) :
    (¬OnCalendar (c.dayAt now) → ∀ text, c.searchDay text now = .error ⟨c.dayAt now⟩) ∧
    (OnCalendar (c.dayAt now) → ∀ text,
      (∀ n unit, WritesShift (lowerChars (trimChars text.toList)) n unit →
        c.searchDay text now =
          .ok (if (n : Int) ≤ maxInt64 ∧ (-maxSpan ≤ unit * n ∧ unit * n ≤ maxSpan) ∧
              Instant.inRange (now.shiftStart (unit * n) + unit * n) then
            some (Date.ofDay ((now.shiftStart (unit * n) + unit * n) / daySeconds)).text
          else none)) ∧
      (WritesBoth (lowerChars (trimChars text.toList)) → c.searchDay text now = .ok none)) := by
  refine ⟨Clock.searchDay_off, fun hnow text => ⟨fun n unit hwrites => ?_, fun hwrites => ?_⟩⟩
  · obtain ⟨front, ds, back, k, hcs, hspan⟩ := hwrites.exists_span
    rw [Clock.searchDay_span hnow hspan hcs, ← hcs, hwrites.read, shifted_date]
  · obtain ⟨front, ds, back, n, k, hcs, hspan⟩ := hwrites.exists_span
    rw [Clock.searchDay_span hnow hspan hcs, ← hcs, hwrites.read]
    rfl

theorem writesSpan_days {ds gap : List Char} {n : Nat} (amount : Spells ds n)
    (blank : ∀ c ∈ gap, isBlank c) (plural : Nat) :
    WritesSpan (ds ++ (gap ++ ("day".toList ++ List.replicate plural 's'))) n 86400 :=
  .mk plural amount blank (by decide)

theorem three_days_ago :
    santiago.searchDay "3 Days AGO" noon = .ok (some "2024-03-12") ∧
      santiago.searchDay "-3days" noon = .ok (some "2024-03-12") ∧
      santiago.searchDay "-3 days ago" noon = .ok none := by
  obtain ⟨-, hon⟩ := span_is_counted_from_now santiago noon
  have hsearch := hon (by decide)
  have hblank : ∀ c ∈ [' '], isBlank c := List.forall_mem_singleton.mpr (by decide)
  have hthree : Spells ['3'] 3 := .of_read rfl
  have hapart : WritesSpan "3 days".toList 3 86400 := writesSpan_days hthree hblank 1
  have hjoined : WritesSpan "3days".toList 3 86400 := @writesSpan_days ['3'] [] 3 hthree nofun 1
  refine ⟨?_, ?_, ?_⟩
  · have hlow : lowerChars (trimChars "3 Days AGO".toList) =
        "3 days".toList ++ ([' '] ++ "ago".toList) := by
      decide +kernel
    rw [(hsearch "3 Days AGO").1 3 (-86400) (hlow ▸ .ago hapart hblank)]
    decide +kernel
  · have hlow : lowerChars (trimChars "-3days".toList) = '-' :: ([] ++ "3days".toList) := by
      decide +kernel
    rw [(hsearch "-3days").1 3 (-86400) (hlow ▸ .minus nofun hjoined)]
    decide +kernel
  · have hlow : lowerChars (trimChars "-3 days ago".toList) =
        '-' :: ([] ++ ("3 days".toList ++ ([' '] ++ "ago".toList))) := by
      decide +kernel
    exact (hsearch "-3 days ago").2 (hlow ▸ .mk (.inr rfl) nofun hapart hblank)

/-- An hour to the east the last half hour of the calendar is over, and then not even the day before
is found. -/
theorem no_day_ago_at_the_end :
    WritesShift "1 day ago".toList 1 (-86400) ∧
      Instant.inRange (lastHalfHour.shiftStart (-86400) + -86400) ∧
      ∀ found, (Zone.fixed 3600).clock.searchDay "1 day ago" lastHalfHour ≠ .ok found := by
  have hblank : ∀ c ∈ [' '], isBlank c := List.forall_mem_singleton.mpr (by decide)
  have hone : Spells ['1'] 1 := .of_read rfl
  refine ⟨.ago (writesSpan_days hone hblank 0) hblank, by decide, fun found => ?_⟩
  rw [Clock.searchDay_off (by decide)]
  exact nofun

end Newsfeed.Time
