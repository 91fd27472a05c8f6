import Newsfeed.Proofs.Text.Settled
import Newsfeed.Proofs.Time.ReadBack
import Newsfeed.Time.SearchDate

/-!
Days as they are written in a search. Each of the ways to write one is read as it is meant: the
patterns that are tried before do not fit.
-/

namespace Newsfeed.Time

open Newsfeed.Text

/-- A number of one or two digits. -/
structure WritesTwo (ds : List Char) (n : Nat) : Prop extends Spells ds n where
  short : ds.length ≤ 2

/-- The ways to write a day: year, month and day with hyphens or slashes, day, month and year with
points, or the digits of year, month and day with nothing between them: four, two and one or two. -/
inductive WritesDay : List Char → Date → Prop
  | separated {sep : Char} {ys ms ds : List Char} {y : Int} {m d : Nat}
      (between : sep = '-' ∨ sep = '/') (year : WritesYear ys y) (month : WritesTwo ms m)
      (day : WritesTwo ds d) : WritesDay (ys ++ sep :: (ms ++ sep :: ds)) ⟨y, m, d⟩
  | points {ds ms ys : List Char} {d m : Nat} {y : Int} (day : WritesTwo ds d)
      (month : WritesTwo ms m) (year : WritesYear ys y) :
      WritesDay (ds ++ '.' :: (ms ++ '.' :: ys)) ⟨y, m, d⟩
  | joined {ys ms ds : List Char} {y m d : Nat} (year : Spells ys y) (month : Spells ms m)
      (day : WritesTwo ds d) (lengths : ys.length = 4 ∧ ms.length = 2) :
      WritesDay (ys ++ (ms ++ ds)) ⟨y, m, d⟩

/-- What stands in front of the numbers of a day and between them. -/
def dayMarks : List Char := ['+', '-', '/', '.']

/-- The characters that can be read as parts of a day. -/
def isDayChar (c : Char) : Bool := c.isDigit || isBlank c || dayMarks.contains c

theorem plain_of_not_dayChar {c : Char} (h : isDayChar c = false) :
    c.isDigit = false ∧ isBlank c = false := by
  simp only [isDayChar, Bool.or_eq_false_iff] at h
  exact h.1

theorem dayMark_plain {c : Char} (h : c ∈ dayMarks) : c.toNat < 58 ∧ isBlank c = false := by
  have hall : dayMarks.all fun s => decide (s.toNat < 58) && !isBlank s := by decide
  simpa using List.all_eq_true.mp hall c h

section Fields

variable {cs ds : List Char} {sep : Char} {n : Nat} {y : Int}

theorem WritesTwo.take (h : WritesTwo ds n) (hsep : sep.isDigit = false) (rest : List Char) :
    Item.take.two (ds ++ sep :: rest) = some (n, sep :: rest) :=
  two_spelled h.toSpells h.short (.inr (noDigitFirst_cons hsep rest))

theorem WritesTwo.takeLast (h : WritesTwo ds n) : Item.take.two ds = some (n, []) := by
  have htake := two_spelled h.toSpells h.short (.inr noDigitFirst_nil)
  rwa [List.append_nil] at htake

theorem WritesTwo.writesYear (h : WritesTwo ds n) : WritesYear ds n :=
  .plain h.toSpells (Nat.le_trans h.short (by decide))

theorem WritesYear.take (h : WritesYear cs y) (hsep : sep.isDigit = false) (rest : List Char) :
    takeYear (Text.trimStart (cs ++ sep :: rest)) = some (y, sep :: rest) := by
  rw [h.trimStart, takeYear_written h (noDigitFirst_cons hsep rest)]

theorem WritesYear.takeLast (h : WritesYear cs y) :
    takeYear (Text.trimStart cs) = some (y, []) := by
  have htrim := h.trimStart []
  have htake := takeYear_written h noDigitFirst_nil
  rw [List.append_nil] at htrim htake
  rw [htrim, htake]

/-- Of four digits a field takes two. -/
theorem two_of_four (h : Spells ds n) (hlength : ds.length = 4) (rest : List Char) :
    ∃ k c tail, Item.take.two (ds ++ rest) = some (k, c :: tail) ∧ c.isDigit := by
  match ds, hlength with
  | [a, b, c, e], _ =>
    have hfront : Spells [a, b] (digitsValue [a, b]) :=
      ⟨fun d hd => h.digits d (List.mem_append_left [c, e] hd), List.cons_ne_nil a [b], rfl⟩
    have htake : Item.take.two ([a, b] ++ c :: e :: rest) =
        some (digitsValue [a, b], c :: e :: rest) :=
      two_spelled hfront (Nat.le_refl 2) (.inl rfl)
    exact ⟨_, c, e :: rest, htake, h.digits c (by simp)⟩

end Fields

section Patterns

variable {cs ys ms ds tail : List Char} {sep c : Char} {y : Int} {m d : Nat}

theorem read_separated (hsep : sep.isDigit = false) (year : WritesYear ys y)
    (month : WritesTwo ms m) (day : WritesTwo ds d) :
    Pattern.read? [.year, .char sep, .month, .char sep, .day] (ys ++ sep :: (ms ++ sep :: ds)) =
      some ⟨⟨y, m, d⟩, 0, 0, 0⟩ := by
  simp [Pattern.read?, Pattern.take, Item.take, takeChar, year.take hsep, month.take hsep,
    day.takeLast, Fields.blank]

theorem read_separated_other (sep : Char) (htake : takeYear (trimStart cs) = some (y, c :: tail))
    (hother : c ≠ sep) :
    Pattern.read? [.year, .char sep, .month, .char sep, .day] cs = none := by
  simp [Pattern.read?, Pattern.take, Item.take, takeChar, htake, hother]

theorem read_points (day : WritesTwo ds d) (month : WritesTwo ms m) (year : WritesYear ys y) :
    Pattern.read? [.day, .char '.', .month, .char '.', .year] (ds ++ '.' :: (ms ++ '.' :: ys)) =
      some ⟨⟨y, m, d⟩, 0, 0, 0⟩ := by
  have hpoint : ('.').isDigit = false := by decide
  simp [Pattern.read?, Pattern.take, Item.take, takeChar, day.take hpoint, month.take hpoint,
    year.takeLast, Fields.blank]

theorem read_points_other (htake : Item.take.two cs = some (d, c :: tail)) (hother : c ≠ '.') :
    Pattern.read? [.day, .char '.', .month, .char '.', .year] cs = none := by
  simp [Pattern.read?, Pattern.take, Item.take, takeChar, htake, hother]

theorem read_joined {y : Nat} (year : Spells ys y) (month : Spells ms m) (day : WritesTwo ds d)
    (hlengths : ys.length = 4 ∧ ms.length = 2) :
    Pattern.read? [.year, .month, .day] (ys ++ (ms ++ ds)) = some ⟨⟨y, m, d⟩, 0, 0, 0⟩ := by
  have hyear : takeYear (ys ++ (ms ++ ds)) = some ((y : Int), ms ++ ds) :=
    takeYear_plain year (Nat.le_of_eq hlengths.1) (.inl hlengths.1)
  have hmonth : Item.take.two (ms ++ ds) = some (m, ds) :=
    two_spelled month (Nat.le_of_eq hlengths.2) (.inl hlengths.2)
  simp [Pattern.read?, Pattern.take, Item.take, year.trimStart, hyear, hmonth, day.takeLast,
    Fields.blank]

end Patterns

section Written

variable {cs : List Char} {d : Date}

/-- Every way to write a day is read as that day. -/
theorem WritesDay.read (h : WritesDay cs d) (hvalid : d.isValid) : readDay? cs = some d.toDay := by
  have hhyphen : ('-').isDigit = false := by decide
  have hslash : ('/').isDigit = false := by decide
  have hpoint : ('.').isDigit = false := by decide
  have hother {c : Char} (hdigit : c.isDigit) : c ≠ '-' ∧ c ≠ '/' ∧ c ≠ '.' := by
    refine ⟨?_, ?_, ?_⟩ <;> rintro rfl <;> cases hdigit
  cases h with
  | separated hsep year month day =>
    rcases hsep with rfl | rfl
    · simp [readDay?, dayPatterns, read_separated hhyphen year month day, hvalid]
    · have hfirst (rest : List Char) :=
        read_separated_other '-' (year.take hslash rest) (by decide)
      simp [readDay?, dayPatterns, hfirst, read_separated hslash year month day, hvalid]
  | points day month year =>
    have hyear := day.writesYear.take hpoint
    have hfirst (rest : List Char) := read_separated_other '-' (hyear rest) (by decide)
    have hsecond (rest : List Char) := read_separated_other '/' (hyear rest) (by decide)
    simp [readDay?, dayPatterns, hfirst, hsecond, read_points day month year, hvalid]
  | @joined ys ms ds y m d year month day hlengths =>
    obtain ⟨c, tail, hms, hdigit⟩ := month.exists_cons
    have hyear : takeYear (trimStart (ys ++ (ms ++ ds))) = some ((y : Int), c :: (tail ++ ds)) := by
      rw [year.trimStart, takeYear_plain year (Nat.le_of_eq hlengths.1) (.inl hlengths.1), hms]
      rfl
    obtain ⟨k, e, tail', hthird, hdigit'⟩ := two_of_four year hlengths.1 (ms ++ ds)
    have hfirst := read_separated_other '-' hyear (hother hdigit).1
    have hsecond := read_separated_other '/' hyear (hother hdigit).2.1
    have hthird := read_points_other hthird (hother hdigit').2.2
    simp [readDay?, dayPatterns, hfirst, hsecond, hthird, read_joined year month day hlengths,
      hvalid]

theorem WritesYear.mem {y : Int} (h : WritesYear cs y) {c : Char} (hc : c ∈ cs) :
    c.isDigit ∨ c ∈ dayMarks := by
  cases h with
  | plain year => exact .inl (year.digits c hc)
  | after year =>
    rcases List.mem_cons.mp hc with rfl | hc
    · exact .inr (by decide)
    · exact .inl (year.digits c hc)
  | before year =>
    rcases List.mem_cons.mp hc with rfl | hc
    · exact .inr (by decide)
    · exact .inl (year.digits c hc)

/-- A day is written in digits and signs. -/
theorem WritesDay.mem (h : WritesDay cs d) {c : Char} (hc : c ∈ cs) :
    c.isDigit ∨ c ∈ dayMarks := by
  cases h with
  | separated hsep year month day =>
    simp only [List.mem_append, List.mem_cons] at hc
    rcases hc with hc | rfl | hc | rfl | hc
    · exact year.mem hc
    · rcases hsep with rfl | rfl <;> exact .inr (by decide)
    · exact .inl (month.digits c hc)
    · rcases hsep with rfl | rfl <;> exact .inr (by decide)
    · exact .inl (day.digits c hc)
  | points day month year =>
    simp only [List.mem_append, List.mem_cons] at hc
    rcases hc with hc | rfl | hc | rfl | hc
    · exact .inl (day.digits c hc)
    · exact .inr (by decide)
    · exact .inl (month.digits c hc)
    · exact .inr (by decide)
    · exact year.mem hc
  | joined year month day =>
    simp only [List.mem_append] at hc
    rcases hc with hc | hc | hc
    · exact .inl (year.digits c hc)
    · exact .inl (month.digits c hc)
    · exact .inl (day.digits c hc)

/-- Lowercasing changes nothing about it. -/
theorem WritesDay.lowered (h : WritesDay cs d) : lowerChars cs = cs := by
  refine lowerFrom_eq_self fun c hc => ?_
  have hsmall : c.toNat < 58 := by
    rcases h.mem hc with hdigit | hsign
    · have := toNat_of_isDigit hdigit
      omega
    · exact (dayMark_plain hsign).1
  refine settled_of_ascii (by omega) fun hcapital => ?_
  have := hcapital.1
  omega

theorem WritesDay.not_blank (h : WritesDay cs d) {c : Char} (hc : c ∈ cs) : isBlank c = false := by
  rcases h.mem hc with hdigit | hsign
  · exact isBlank_of_isDigit hdigit
  · exact (dayMark_plain hsign).2

theorem WritesDay.trimmed (h : WritesDay cs d) : trimChars cs = cs :=
  trimChars_eq_self (fun _ hc => h.not_blank (List.mem_of_mem_head? hc))
    fun _ hc => h.not_blank (List.mem_of_getLast? hc)

theorem WritesDay.exists_digit (h : WritesDay cs d) : ∃ c ∈ cs, c.isDigit := by
  cases h with
  | separated _ _ _ day =>
    obtain ⟨c, ds, rfl, hdigit⟩ := day.exists_cons
    exact ⟨c, by simp, hdigit⟩
  | points day =>
    obtain ⟨c, ds, rfl, hdigit⟩ := day.exists_cons
    exact ⟨c, by simp, hdigit⟩
  | joined year =>
    obtain ⟨c, ys, rfl, hdigit⟩ := year.exists_cons
    exact ⟨c, by simp, hdigit⟩

theorem readDay_mem {n : Int} (h : readDay? cs = some n) {c : Char} (hc : c ∈ cs) :
    isDayChar c := by
  obtain ⟨p, hp, hread⟩ := List.exists_of_findSome?_eq_some h
  obtain ⟨f, hfields, -⟩ := Option.bind_eq_some_iff.mp hread
  have hbetween : ∀ p ∈ dayPatterns, ∀ b, .char b ∈ p → b ∈ dayMarks := by
    simp [dayPatterns, dayMarks]
  unfold Pattern.read? at hfields
  split at hfields
  · rename_i g htake
    obtain ⟨front, rfl, hfront⟩ := Pattern.take_front htake
    rw [List.append_nil] at hc
    obtain ⟨i, hi, hdigit | hblank | rfl | rfl | rfl⟩ := hfront c hc
    · simp [isDayChar, hdigit]
    · simp [isDayChar, hblank]
    · decide
    · decide
    · simp [isDayChar, hbetween p hp c hi]
  · cases hfields

/-- The text of a day that exists is a way to write it. -/
theorem Date.Exists.writesText (h : d.Exists) : WritesDay d.text.toList d := by
  have htwo {n : Nat} (hn : n < 100) : WritesTwo (padded 2 n).toList n :=
    ⟨spells_padded 2 n, Nat.le_of_eq (padded_length (by decide) hn)⟩
  obtain ⟨hmonth, hday⟩ := h.lt_hundred
  have hwrites :=
    WritesDay.separated (.inl rfl) (writesYear_yearText d.year) (htwo hmonth) (htwo hday)
  simpa [Date.text, String.toList_append] using hwrites

theorem Date.Exists.valid (h : d.Exists) (hyear : firstYear ≤ d.year ∧ d.year ≤ lastYear) :
    d.isValid := by
  simp [Date.isValid, hyear, h.dayPos, h.dayLe]

end Written

end Newsfeed.Time
