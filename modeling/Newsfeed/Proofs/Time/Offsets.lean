import Newsfeed.Proofs.Text.Decimal
import Newsfeed.Time.Zone

/-!
Offsets as they are written, and what is read as one. The colons between hours and minutes are
passed over wherever they stand, so that more is read than is written.
-/

namespace Newsfeed.Time

open Newsfeed.Text

/-- The ways to write hours and minutes, with the seconds that they make up. -/
inductive WritesClock : List Char → Nat → Prop
  | hours {hs : List Char} {h : Nat} (hour : Spells hs h) (length : hs.length ≤ 2) (le : h ≤ 14) :
      WritesClock hs (h * 3600)
  | joined {hs ms : List Char} {h m : Nat} (hour : Spells hs h) (minute : Spells ms m)
      (lengths : hs.length = 2 ∧ ms.length = 2) (le : h ≤ 14 ∧ m ≤ 59) :
      WritesClock (hs ++ ms) (h * 3600 + m * 60)
  | apart {hs ms : List Char} {h m : Nat} (hour : Spells hs h) (minute : Spells ms m)
      (lengths : hs.length = 2 ∧ ms.length = 2) (le : h ≤ 14 ∧ m ≤ 59) :
      WritesClock (hs ++ ':' :: ms) (h * 3600 + m * 60)

/-- The ways to write an offset, with the seconds that it lies east of UTC. -/
inductive WritesOffset : List Char → Int → Prop
  | utc {cs : List Char}
      (name : cs.map Char.toLower = "utc".toList ∨ cs.map Char.toLower = "gmt".toList) :
      WritesOffset cs 0
  | zulu : WritesOffset ['Z'] 0
  | east {cs : List Char} {n : Nat} (clock : WritesClock cs n) : WritesOffset ('+' :: cs) n
  | west {cs : List Char} {n : Nat} (clock : WritesClock cs n) : WritesOffset ('-' :: cs) (-n)

section Digits

variable {ds cs : List Char} {n : Nat}

theorem colon_not_mem (h : Spells ds n) : ':' ∉ ds := fun hmem => by
  have hdigit := h.digits ':' hmem
  cases hdigit

theorem uncoloned_of_spells (h : Spells ds n) : ds.filter (· ≠ ':') = ds :=
  List.filter_eq_self.mpr fun c hc => by
    rw [decide_eq_true_eq]
    rintro rfl
    exact colon_not_mem h hc

/-- Two digits of hours and two of minutes. -/
theorem hoursMinutes_four {hs ms : List Char} {h m : Nat} (hour : Spells hs h)
    (minute : Spells ms m) (hlengths : hs.length = 2 ∧ ms.length = 2) (hle : h ≤ 14 ∧ m ≤ 59) :
    hoursMinutes? (hs ++ ms) = some ((h * 3600 + m * 60 : Nat) : Int) := by
  have hdigits : (hs ++ ms).all Char.isDigit := by
    rw [List.all_append, List.all_eq_true.mpr hour.digits, List.all_eq_true.mpr minute.digits,
      Bool.and_true]
  have htake : (hs ++ ms).take 2 = hs := by rw [← hlengths.1, List.take_left]
  have hdrop : (hs ++ ms).drop 2 = ms := by rw [← hlengths.1, List.drop_left]
  simp [hoursMinutes?, hdigits, htake, hdrop, hour.value, minute.value, hlengths, hle]

theorem WritesClock.read (h : WritesClock cs n) :
    hoursMinutes? (cs.filter (· ≠ ':')) = some (n : Int) := by
  cases h with
  | hours hour hlength hle =>
    have hpos := List.length_pos_iff.mpr hour.ne_nil
    have hshort : cs.length = 1 ∨ cs.length = 2 := by omega
    rw [uncoloned_of_spells hour]
    simp [hoursMinutes?, List.all_eq_true.mpr hour.digits, hshort, hour.value, hle]
  | joined hour minute hlengths hle =>
    rw [List.filter_append, uncoloned_of_spells hour, uncoloned_of_spells minute]
    exact hoursMinutes_four hour minute hlengths hle
  | apart hour minute hlengths hle =>
    rw [List.filter_append, List.filter_cons_of_neg (by simp), uncoloned_of_spells hour,
      uncoloned_of_spells minute]
    exact hoursMinutes_four hour minute hlengths hle

theorem WritesClock.length_of_colon (h : WritesClock cs n) (hcolon : ':' ∈ cs) :
    cs.length = 5 := by
  cases h with
  | hours hour => exact absurd hcolon (colon_not_mem hour)
  | joined hour minute =>
    rw [List.mem_append] at hcolon
    exact absurd hcolon (not_or.mpr ⟨colon_not_mem hour, colon_not_mem minute⟩)
  | apart _ _ hlengths =>
    rw [List.length_append, List.length_cons, hlengths.1, hlengths.2]

theorem writesClock_of_read {o : Int} (h : hoursMinutes? ds = some o) :
    ∃ n : Nat, o = n ∧ WritesClock ds n := by
  unfold hoursMinutes? at h
  cases hall : ds.all Char.isDigit with
  | false => simp [hall] at h
  | true =>
    have hspells {es : List Char} (hsub : es ⊆ ds) (hne : es ≠ []) : Spells es (digitsValue es) :=
      ⟨fun c hc => List.all_eq_true.mp hall c (hsub hc), hne, rfl⟩
    simp only [hall, Bool.not_true, Bool.false_eq_true, if_false] at h
    split at h
    · rename_i hshort
      simp only [Option.bind_some, Nat.zero_le, and_true, Nat.zero_mul, Nat.add_zero,
        Option.ite_none_right_eq_some, Option.some.injEq] at h
      obtain ⟨hle, rfl⟩ := h
      have hne : ds ≠ [] := by
        rintro rfl
        simp at hshort
      exact ⟨_, rfl, .hours (hspells (List.Subset.refl ds) hne) (by omega) hle⟩
    · split at h
      · rename_i hlong
        simp only [Option.bind_some, Option.ite_none_right_eq_some, Option.some.injEq] at h
        obtain ⟨hle, rfl⟩ := h
        have hlengths : (ds.take 2).length = 2 ∧ (ds.drop 2).length = 2 := by
          simp [hlong]
        have hclock := WritesClock.joined
          (hspells (List.take_subset 2 ds) (List.ne_nil_of_length_pos (by omega)))
          (hspells (List.drop_subset 2 ds) (List.ne_nil_of_length_pos (by omega))) hlengths hle
        rw [List.take_append_drop] at hclock
        exact ⟨_, rfl, hclock⟩
      · cases h

end Digits

section Signed

variable {cs rest : List Char} {sign : Char} {o : Int} {s : String}

theorem unnamed_of_sign (hsign : sign = '+' ∨ sign = '-') (rest : List Char) :
    ¬((sign :: rest).map Char.toLower = "utc".toList ∨
      (sign :: rest).map Char.toLower = "gmt".toList ∨ sign :: rest = ['Z']) := by
  rcases hsign with rfl | rfl <;> simp

theorem readOffset_east (hcs : trimChars s.toList = '+' :: rest) :
    readOffset? s = hoursMinutes? (rest.filter (· ≠ ':')) := by
  simp only [readOffset?, hcs, if_neg (unnamed_of_sign (.inl rfl) rest)]

theorem readOffset_west (hcs : trimChars s.toList = '-' :: rest) :
    readOffset? s = (hoursMinutes? (rest.filter (· ≠ ':'))).map (- ·) := by
  simp only [readOffset?, hcs, if_neg (unnamed_of_sign (.inr rfl) rest)]

/-- Behind a sign colons count for nothing. -/
theorem readOffset_signed (hcs : trimChars s.toList = sign :: rest)
    (hsign : sign = '+' ∨ sign = '-') :
    readOffset? s = some o ↔ WritesOffset (sign :: rest.filter (· ≠ ':')) o := by
  have hagain : (rest.filter (· ≠ ':')).filter (· ≠ ':') = rest.filter (· ≠ ':') := by simp
  constructor
  · intro hread
    rcases hsign with rfl | rfl
    · rw [readOffset_east hcs] at hread
      obtain ⟨n, rfl, hclock⟩ := writesClock_of_read hread
      exact .east hclock
    · rw [readOffset_west hcs] at hread
      obtain ⟨k, hclock, rfl⟩ := Option.map_eq_some_iff.mp hread
      obtain ⟨n, rfl, hwrites⟩ := writesClock_of_read hclock
      exact .west hwrites
  · intro hwrites
    generalize hds : rest.filter (· ≠ ':') = ds at *
    cases hwrites with
    | utc hname => exact absurd (hname.imp_right .inl) (unnamed_of_sign hsign ds)
    | zulu => exact absurd (.inr (.inr rfl)) (unnamed_of_sign hsign [])
    | east hclock => rw [readOffset_east hcs, hds, ← hagain, hclock.read]
    | west hclock => rw [readOffset_west hcs, hds, ← hagain, hclock.read, Option.map_some]

/-- Without its colon an offset is the same one. -/
theorem WritesOffset.uncoloned (h : WritesOffset (sign :: rest) o)
    (hsign : sign = '+' ∨ sign = '-') : WritesOffset (sign :: rest.filter (· ≠ ':')) o := by
  cases h with
  | utc hname => exact absurd (hname.imp_right .inl) (unnamed_of_sign hsign rest)
  | zulu => exact absurd (.inr (.inr rfl)) (unnamed_of_sign hsign [])
  | east hclock =>
    obtain ⟨n, heq, hjoined⟩ := writesClock_of_read hclock.read
    rw [heq]
    exact .east hjoined
  | west hclock =>
    obtain ⟨n, heq, hjoined⟩ := writesClock_of_read hclock.read
    rw [heq]
    exact .west hjoined

theorem readOffset_unsigned (hplus : ∀ rest, trimChars s.toList ≠ '+' :: rest)
    (hminus : ∀ rest, trimChars s.toList ≠ '-' :: rest) :
    readOffset? s = some o ↔ WritesOffset (trimChars s.toList) o := by
  unfold readOffset?
  generalize trimChars s.toList = cs at *
  simp only
  split
  · rename_i hname
    constructor
    · rintro ⟨⟩
      rcases hname with hutc | hgmt | rfl
      · exact .utc (.inl hutc)
      · exact .utc (.inr hgmt)
      · exact .zulu
    · intro hwrites
      cases hwrites with
      | utc => rfl
      | zulu => rfl
      | east => exact absurd rfl (hplus _)
      | west => exact absurd rfl (hminus _)
  · rename_i hname
    refine ⟨nofun, fun hwrites => ?_⟩
    cases hwrites with
    | utc hutc => exact absurd (hutc.imp_right .inl) hname
    | zulu => exact absurd (.inr (.inr rfl)) hname
    | east => exact absurd rfl (hplus _)
    | west => exact absurd rfl (hminus _)

end Signed

theorem WritesClock.lt_day {cs : List Char} {n : Nat} (h : WritesClock cs n) :
    (n : Int) < daySeconds := by
  unfold daySeconds
  cases h <;> omega

/-- What is read as an offset is less than a day. -/
theorem readOffset_lt_day {s : String} {o : Int} (h : readOffset? s = some o) :
    -daySeconds < o ∧ o < daySeconds := by
  have hread {ds : List Char} {p : Int} (hp : hoursMinutes? ds = some p) :
      0 ≤ p ∧ p < daySeconds := by
    obtain ⟨n, rfl, hclock⟩ := writesClock_of_read hp
    exact ⟨Int.natCast_nonneg n, hclock.lt_day⟩
  unfold readOffset? at h
  simp only at h
  split at h
  · cases h
    decide
  · split at h
    · have := hread h
      unfold daySeconds at *
      omega
    · obtain ⟨p, hp, rfl⟩ := Option.map_eq_some_iff.mp h
      have := hread hp
      unfold daySeconds at *
      omega
    · cases h

/-- A text is read as an offset exactly if it writes that one, blanks at its ends apart, or if it is
no offset, has a colon behind its sign and writes that one once the colons are taken out. -/
theorem offset_read_iff (s : String) (o : Int) :
    readOffset? s = some o ↔ WritesOffset (trimChars s.toList) o ∨
      (∀ p, ¬WritesOffset (trimChars s.toList) p) ∧
        ∃ sign rest, trimChars s.toList = sign :: rest ∧ (sign = '+' ∨ sign = '-') ∧ ':' ∈ rest ∧
          WritesOffset (sign :: rest.filter (· ≠ ':')) o := by
  by_cases hsigned : ∃ sign rest, trimChars s.toList = sign :: rest ∧ (sign = '+' ∨ sign = '-')
  · obtain ⟨sign, rest, hcs, hsign⟩ := hsigned
    have hread {p : Int} := readOffset_signed (o := p) hcs hsign
    rw [hread, hcs]
    constructor
    · intro hfiltered
      by_cases hwritten : ∃ p, WritesOffset (sign :: rest) p
      · obtain ⟨p, hp⟩ := hwritten
        have hsame := (hread.mpr (hp.uncoloned hsign)).symm.trans (hread.mpr hfiltered)
        exact .inl (Option.some.inj hsame ▸ hp)
      · rw [not_exists] at hwritten
        refine .inr
          ⟨hwritten, sign, rest, rfl, hsign, Classical.not_not.mp fun hnone => ?_, hfiltered⟩
        have hplain : rest.filter (· ≠ ':') = rest := List.filter_eq_self.mpr fun c hc => by
          rw [decide_eq_true_eq]
          rintro rfl
          exact hnone hc
        exact hwritten o (hplain ▸ hfiltered)
    · rintro (hwrites | ⟨-, sign', rest', heq, -, -, hfiltered⟩)
      · exact hwrites.uncoloned hsign
      · obtain ⟨rfl, rfl⟩ := List.cons.inj heq
        exact hfiltered
  · have hplus (rest : List Char) (hcs : trimChars s.toList = '+' :: rest) : False :=
      hsigned ⟨_, rest, hcs, .inl rfl⟩
    have hminus (rest : List Char) (hcs : trimChars s.toList = '-' :: rest) : False :=
      hsigned ⟨_, rest, hcs, .inr rfl⟩
    rw [readOffset_unsigned hplus hminus, iff_self_or]
    rintro ⟨-, sign, rest, hcs, hsign, -⟩
    exact absurd ⟨sign, rest, hcs, hsign⟩ hsigned

/-- One hour and two minutes without zeros in front are no offset, and are read as twelve hours. -/
theorem one_hour_two_read_as_twelve :
    readOffset? "+1:2" = some (12 * 3600) ∧ ¬∃ o, WritesOffset (trimChars "+1:2".toList) o := by
  refine ⟨by decide, ?_⟩
  rintro ⟨o, hwrites⟩
  have hcs : trimChars "+1:2".toList = ['+', '1', ':', '2'] := by decide
  rw [hcs] at hwrites
  cases hwrites with
  | utc hname => exact absurd (hname.imp_right .inl) (unnamed_of_sign (.inl rfl) _)
  | east hclock => exact absurd (hclock.length_of_colon (by decide)) (by decide)

end Newsfeed.Time
