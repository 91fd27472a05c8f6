import Mathlib.Data.List.Induction
import Newsfeed.Proofs.Time.ReadBack
import Newsfeed.Time.Rfc3339

/-!
Times through RFC 3339 text. Whatever text a time is read from, it is an instant of the calendar,
and the text that is written for such an instant is read back as the same one, to the nanosecond.
-/

namespace Newsfeed.Time

open Newsfeed.Text

section Fraction

variable {cs ds rest : List Char} {n : Nat}

theorem digitsValue_concat (ds : List Char) (c : Char) :
    digitsValue (ds ++ [c]) = 10 * digitsValue ds + digitValue c := by
  rw [digitsValue, List.foldl_append]
  rfl

theorem digitsValue_lt (h : ∀ c ∈ ds, c.isDigit) : digitsValue ds < 10 ^ ds.length := by
  induction ds using List.reverseRecOn with
  | nil => decide
  | append_singleton ds c ih =>
    obtain ⟨hds, hc⟩ := List.forall_mem_append.mp h
    have hdigit := toNat_of_isDigit (hc c (List.mem_singleton_self c))
    have hvalue : digitValue c = c.toNat - 48 := rfl
    have hlt := ih hds
    rw [digitsValue_concat, List.length_append, List.length_singleton, Nat.pow_succ]
    omega

theorem takeFraction_point (h : Spells ds n) (hlength : ds.length ≤ 9) (hrest : NoDigitFirst rest) :
    takeFraction ('.' :: (ds ++ rest)) = some (n * 10 ^ (9 - ds.length), rest) := by
  simp only [takeFraction, takeWhile_digits h.digits hrest, List.take_of_length_le hlength,
    if_neg h.ne_nil, h.value, List.drop_left]
  rfl

/-- However few digits a fraction is written with, they are exact. -/
theorem takeFraction_written (hn : n < 1000000000) :
    takeFraction ((fractionText n).toList ++ ['Z']) = some (n, ['Z']) := by
  have hpoint {width m : Nat} (hwidth : 0 < width) (hle : width ≤ 9) (hm : m < 10 ^ width)
      (hexact : m * 10 ^ (9 - width) = n) :
      takeFraction (("." ++ padded width m).toList ++ ['Z']) = some (n, ['Z']) := by
    have hlength : (padded width m).toList.length = width := padded_length hwidth hm
    have hzulu : NoDigitFirst ['Z'] := noDigitFirst_cons (by decide) []
    have htake := takeFraction_point (spells_padded width m) (hlength.trans_le hle) hzulu
    rw [hlength, hexact] at htake
    rwa [String.toList_append]
  unfold fractionText
  split_ifs with hzero hmillis hmicros
  · rw [hzero]
    rfl
  · exact hpoint (by decide) (by decide) (by omega) (by omega)
  · exact hpoint (by decide) (by decide) (by omega) (by omega)
  · exact hpoint (by decide) (by decide) hn (by omega)

/-- Digits after the ninth do not count. -/
theorem takeFraction_lt (h : takeFraction cs = some (n, rest)) : n < 1000000000 := by
  unfold takeFraction at h
  split at h
  · rename_i cs
    simp only [Option.ite_none_left_eq_some, Option.some.injEq, Prod.mk.injEq] at h
    obtain ⟨-, rfl, -⟩ := h
    have hdigits : ∀ c ∈ (cs.takeWhile Char.isDigit).take 9, c.isDigit := fun c hc =>
      List.mem_takeWhile_imp (List.mem_of_mem_take hc)
    have hlength : ((cs.takeWhile Char.isDigit).take 9).length ≤ 9 := List.length_take_le 9 _
    generalize (cs.takeWhile Char.isDigit).take 9 = nine at hdigits hlength ⊢
    have hfull := Nat.mul_lt_mul_of_pos_right (digitsValue_lt hdigits)
      (Nat.pow_pos (n := 9 - nine.length) (by decide : 0 < 10))
    rwa [← Nat.pow_add, Nat.add_sub_cancel' hlength] at hfull
  · cases h
    decide

end Fraction

section Offset

variable {cs rest : List Char} {o : Int}

theorem takeHoursMinutes_minutes (h : takeHoursMinutes cs = some (o, rest)) : o % 60 = 0 := by
  unfold takeHoursMinutes at h
  obtain ⟨⟨hours, cs⟩, -, h⟩ := Option.bind_eq_some_iff.mp h
  obtain ⟨⟨minutes, cs⟩, -, h⟩ := Option.bind_eq_some_iff.mp h
  simp only [Option.ite_none_right_eq_some, Option.some.injEq, Prod.mk.injEq] at h
  obtain ⟨-, rfl, -⟩ := h
  rw [Int.ofNat_eq_natCast]
  omega

/-- An offset is one of whole minutes. -/
theorem takeOffset_minutes (h : takeOffset cs = some (o, rest)) : o % 60 = 0 := by
  have hback {ds : List Char} {f : Int × List Char → Int × List Char}
      (hf : ∀ o r, f (o, r) = (-o, r)) (hread : (takeHoursMinutes ds).map f = some (o, rest)) :
      o % 60 = 0 := by
    obtain ⟨⟨east, r⟩, hclock, heq⟩ := Option.map_eq_some_iff.mp hread
    rw [hf, Prod.mk.injEq] at heq
    have := takeHoursMinutes_minutes hclock
    omega
  unfold takeOffset at h
  split at h
  · cases h
    rfl
  · cases h
    rfl
  · exact takeHoursMinutes_minutes h
  · exact hback (fun _ _ => rfl) h
  · exact hback (fun _ _ => rfl) h
  · rw [Option.ite_none_right_eq_some] at h
    cases h.2
    rfl
  · cases h

end Offset

theorem instant_nanos (f : Fields) (n : Nat) :
    f.instant n = ⟨(f.instant 0).seconds, (f.instant 0).nanos + n⟩ := by
  unfold Fields.instant
  split <;> simp [Nat.add_comm]

namespace Instant

variable {t : Instant}

/-- Whole minutes east or west of UTC leave a leap second the last of its minute. -/
theorem instant_onClock (f : Fields) {n : Nat} (hn : n < 1000000000) {o : Int} (ho : o % 60 = 0) :
    OnClock ⟨(f.instant n).seconds - o, (f.instant n).nanos⟩ := by
  unfold Fields.instant daySeconds
  constructor
  · show _ < 2000000000
    split <;> simp only <;> omega
  · simp only [isLeapSecond, decide_eq_true_eq]
    split <;> simp only <;> omega

/-- Nothing is read but instants of the calendar. -/
theorem exists_of_read {s : String} (h : ofRfc3339? s = some t) : t.Exists := by
  unfold ofRfc3339? at h
  obtain ⟨⟨date, cs⟩, -, h⟩ := Option.bind_eq_some_iff.mp h
  obtain ⟨cs, -, h⟩ := Option.bind_eq_some_iff.mp h
  obtain ⟨⟨f, cs⟩, -, h⟩ := Option.bind_eq_some_iff.mp h
  obtain ⟨⟨n, cs⟩, hfraction, h⟩ := Option.bind_eq_some_iff.mp h
  obtain ⟨⟨o, cs⟩, hoffset, h⟩ := Option.bind_eq_some_iff.mp h
  simp only [Option.ite_none_right_eq_some, Option.some.injEq] at h
  obtain ⟨⟨-, -, -, -, hrange⟩, rfl⟩ := h
  exact ⟨instant_onClock f (takeFraction_lt hfraction) (takeOffset_minutes hoffset), hrange⟩

/-- The clock with the fraction of a second is the instant itself. -/
theorem instant_shown (h : t.OnClock) : t.shownFields.instant (t.nanos % 1000000000) = t := by
  have hnanos := h.nanos
  rw [instant_nanos, instant_shownFields h, truncate, mk.injEq]
  refine ⟨rfl, ?_⟩
  simp only [isLeapSecond, decide_eq_true_eq]
  split <;> omega

theorem take_date (t : Instant) (rest : List Char) :
    datePattern.take .blank (t.date.text.toList ++ 'T' :: rest) =
      some (⟨t.date, 0, 0, 0⟩, 'T' :: rest) := by
  obtain ⟨⟨hmonth, hday⟩, -⟩ := t.fields_lt_hundred
  have hyear := writesYear_yearText t.date.year
  have hhyphen (rest : List Char) : takeYear ((yearText t.date.year).toList ++ '-' :: rest) =
      some (t.date.year, '-' :: rest) := takeYear_written hyear (noDigitFirst_cons rfl rest)
  have hblank (rest : List Char) : trimStart ('-' :: rest) = '-' :: rest := rfl
  simp [Date.text, datePattern, Pattern.take, Item.take, takeChar, hyear.trimStart, hhyphen,
    hblank, two_padded, hmonth, hday, Fields.blank]

theorem take_clock (t : Instant) (rest : List Char) :
    clockPattern.take ⟨t.date, 0, 0, 0⟩ (t.clockText.toList ++ rest) =
      some (t.shownFields, rest) := by
  obtain ⟨-, hhour, hminute, hsecond⟩ := t.fields_lt_hundred
  have hclock : t.clockText = padded 2 (t.secondOfDay / 3600) ++ ":" ++
    padded 2 (t.secondOfDay / 60 % 60) ++ ":" ++ padded 2 t.shownSecond := rfl
  have hblank (rest : List Char) : trimStart (':' :: rest) = ':' :: rest := rfl
  simp [hclock, clockPattern, Pattern.take, Item.take, takeChar, hblank,
    two_padded, hhour, hminute, hsecond, shownFields]

/-- What is written for an instant of the calendar is read back as it. -/
theorem Exists.read_rfc3339 (h : t.Exists) : ofRfc3339? t.rfc3339 = some t := by
  have htext : t.rfc3339.toList = t.date.text.toList ++ 'T' :: (t.clockText.toList ++
      ((fractionText (t.nanos % 1000000000)).toList ++ ['Z'])) := by
    simp [rfc3339]
  have hfraction := takeFraction_written (Nat.mod_lt t.nanos (by decide : 0 < 1000000000))
  have hoffset : takeOffset (trimStart ['Z']) = some (0, []) := rfl
  have hseparator (rest : List Char) : takeSeparator ('T' :: rest) = some rest := rfl
  have hend : trimStart [] = [] := rfl
  simp [ofRfc3339?, htext, take_date, take_clock, hseparator, hfraction, hoffset,
    instant_shown h.toOnClock, shownFields_valid h.inRange, h.inRange, daySeconds, hend]

end Instant

end Newsfeed.Time
