import Mathlib.Data.List.TakeWhile
import Newsfeed.Proofs.Text.Decimal
import Newsfeed.Proofs.Text.Order
import Newsfeed.Time.Fields

/-!
The numbers of a date or time are read as they are written, up to where their digits end or where
there are as many of them as the field has.
-/

namespace Newsfeed.Time

open Newsfeed.Text

/-- A text that does not go on with a digit. -/
def NoDigitFirst (cs : List Char) : Prop := ∀ c ∈ cs.head?, c.isDigit = false

theorem noDigitFirst_nil : NoDigitFirst [] := nofun

theorem noDigitFirst_cons {c : Char} (h : c.isDigit = false) (cs : List Char) :
    NoDigitFirst (c :: cs) := by
  rintro d ⟨⟩
  exact h

theorem NoDigitFirst.take {cs : List Char} (h : NoDigitFirst cs) (k : Nat) :
    NoDigitFirst (cs.take k) := by
  intro c hc
  rw [List.head?_take] at hc
  split at hc
  · cases hc
  · exact h c hc

section Digits

variable {ds rest : List Char} {n width : Nat}

theorem takeWhile_digits (hds : ∀ c ∈ ds, c.isDigit) (hrest : NoDigitFirst rest) :
    (ds ++ rest).takeWhile Char.isDigit = ds := by
  rw [List.takeWhile_append_of_pos hds]
  cases rest with
  | nil => simp
  | cons c cs => rw [List.takeWhile_cons_of_neg (by simp [hrest c rfl]), List.append_nil]

theorem takeDigits_all (h : Spells ds n) (hrest : NoDigitFirst rest) :
    takeDigits none (ds ++ rest) = some (n, rest) := by
  simp only [takeDigits, takeWhile_digits h.digits hrest, if_neg h.ne_nil, h.value, List.drop_left]

theorem takeDigits_within (h : Spells ds n) (hlength : ds.length ≤ width)
    (hrest : ds.length = width ∨ NoDigitFirst rest) :
    takeDigits (some width) (ds ++ rest) = some (n, rest) := by
  have hdigits : ((ds ++ rest).take width).takeWhile Char.isDigit = ds := by
    rw [List.take_append, List.take_of_length_le hlength]
    rcases hrest with hfull | hrest
    · rw [hfull, Nat.sub_self, List.take_zero, List.append_nil]
      exact List.takeWhile_eq_self_iff.mpr h.digits
    · exact takeWhile_digits h.digits (hrest.take _)
  simp only [takeDigits, hdigits, if_neg h.ne_nil, h.value, List.drop_left]

/-- A field of two digits; one digit is enough where no other follows. -/
theorem two_spelled (h : Spells ds n) (hlength : ds.length ≤ 2)
    (hrest : ds.length = 2 ∨ NoDigitFirst rest) : Item.take.two (ds ++ rest) = some (n, rest) := by
  rw [Item.take.two, h.trimStart]
  exact takeDigits_within h hlength hrest

end Digits

/-- The ways to write a year: up to four digits, or a sign and any number of them. -/
inductive WritesYear : List Char → Int → Prop
  | plain {ds : List Char} {n : Nat} (h : Spells ds n) (hlength : ds.length ≤ 4) : WritesYear ds n
  | after {ds : List Char} {n : Nat} (h : Spells ds n) : WritesYear ('+' :: ds) n
  | before {ds : List Char} {n : Nat} (h : Spells ds n) : WritesYear ('-' :: ds) (-n)

namespace WritesYear

variable {cs rest : List Char} {y : Int}

theorem trimStart (h : WritesYear cs y) (rest : List Char) :
    Text.trimStart (cs ++ rest) = cs ++ rest := by
  cases h with
  | plain h => exact h.trimStart rest
  | after => rfl
  | before => rfl

end WritesYear

/-- A year without a sign, which is read as it is where it has four digits. -/
theorem takeYear_plain {ds rest : List Char} {n : Nat} (h : Spells ds n) (hlength : ds.length ≤ 4)
    (hrest : ds.length = 4 ∨ NoDigitFirst rest) :
    takeYear (ds ++ rest) = some ((n : Int), rest) := by
  have htake := takeDigits_within h hlength hrest
  obtain ⟨c, cs, rfl, hdigit⟩ := h.exists_cons
  rw [List.cons_append] at htake ⊢
  unfold takeYear
  split
  · rename_i heq
    obtain ⟨rfl, -⟩ := List.cons.inj heq
    cases hdigit
  · rename_i heq
    obtain ⟨rfl, -⟩ := List.cons.inj heq
    cases hdigit
  · rw [htake]
    rfl

theorem takeYear_written {cs rest : List Char} {y : Int} (h : WritesYear cs y)
    (hrest : NoDigitFirst rest) : takeYear (cs ++ rest) = some (y, rest) := by
  cases h with
  | plain h hlength => exact takeYear_plain h hlength (.inr hrest)
  | after h => simp [takeYear, takeDigits_all h hrest]
  | before h => simp [takeYear, takeDigits_all h hrest]

theorem writesYear_yearText (y : Int) : WritesYear (yearText y).toList y := by
  unfold yearText
  by_cases hplain : 0 ≤ y ∧ y ≤ 9999
  · have hlength : (padded 4 y.toNat).toList.length = 4 := padded_length (by decide) (by omega)
    have hwrites := WritesYear.plain (spells_padded 4 y.toNat) (Nat.le_of_eq hlength)
    rw [Int.toNat_of_nonneg hplain.1] at hwrites
    rwa [if_pos hplain]
  · rw [if_neg hplain, String.toList_append]
    by_cases hneg : y < 0
    · have hwrites := WritesYear.before (spells_padded 4 y.natAbs)
      rw [Int.ofNat_natAbs_of_nonpos (Int.le_of_lt hneg), Int.neg_neg] at hwrites
      rwa [if_pos hneg]
    · have hwrites := WritesYear.after (spells_padded 4 y.natAbs)
      rw [Int.natAbs_of_nonneg (Int.not_lt.mp hneg)] at hwrites
      rwa [if_neg hneg]

/-- What a field takes up: digits with a sign or blanks in front, or the character that it is. -/
def Item.TakesUp (i : Item) (c : Char) : Prop :=
  c.isDigit ∨ isBlank c ∨ c = '+' ∨ c = '-' ∨ i = .char c

section TakenUp

variable {i : Item} {f g : Fields} {cs rest : List Char}

theorem takeDigits_front {width : Option Nat} {n : Nat}
    (h : takeDigits width cs = some (n, rest)) :
    ∃ front, cs = front ++ rest ∧ ∀ c ∈ front, c.isDigit := by
  unfold takeDigits at h
  simp only [Option.ite_none_left_eq_some, Option.some.injEq, Prod.mk.injEq] at h
  obtain ⟨-, -, rfl⟩ := h
  refine ⟨_, (List.prefix_iff_eq_append.mp ?_).symm, fun c hc => List.mem_takeWhile_imp hc⟩
  cases width with
  | none => exact List.takeWhile_prefix _
  | some w => exact (List.takeWhile_prefix _).trans (List.take_prefix w cs)

theorem takeYear_front {y : Int} (h : takeYear cs = some (y, rest)) :
    ∃ front, cs = front ++ rest ∧ ∀ c ∈ front, c.isDigit ∨ c = '+' ∨ c = '-' := by
  have hfront {width : Option Nat} {ds : List Char} {f : Nat × List Char → Int × List Char}
      (hf : ∀ n r, (f (n, r)).2 = r) (hread : (takeDigits width ds).map f = some (y, rest)) :
      ∃ front, ds = front ++ rest ∧ ∀ c ∈ front, c.isDigit := by
    obtain ⟨⟨n, r⟩, hdigits, heq⟩ := Option.map_eq_some_iff.mp hread
    have hrest : r = rest := (hf n r).symm.trans (congrArg Prod.snd heq)
    exact hrest ▸ takeDigits_front hdigits
  unfold takeYear at h
  split at h
  · obtain ⟨front, rfl, hdigits⟩ := hfront (fun _ _ => rfl) h
    exact ⟨'-' :: front, rfl,
      List.forall_mem_cons.mpr ⟨.inr (.inr rfl), fun c hc => .inl (hdigits c hc)⟩⟩
  · obtain ⟨front, rfl, hdigits⟩ := hfront (fun _ _ => rfl) h
    exact ⟨'+' :: front, rfl,
      List.forall_mem_cons.mpr ⟨.inr (.inl rfl), fun c hc => .inl (hdigits c hc)⟩⟩
  · obtain ⟨front, rfl, hdigits⟩ := hfront (fun _ _ => rfl) h
    exact ⟨front, rfl, fun c hc => .inl (hdigits c hc)⟩

theorem front_behind_blanks {P : Char → Prop}
    (h : ∃ front, trimStart cs = front ++ rest ∧ ∀ c ∈ front, P c) :
    ∃ front, cs = front ++ rest ∧ ∀ c ∈ front, isBlank c ∨ P c := by
  obtain ⟨front, hcs, hfront⟩ := h
  have hsplit : cs.takeWhile isBlank ++ trimStart cs = cs := List.takeWhile_append_dropWhile
  refine ⟨cs.takeWhile isBlank ++ front, ?_, fun c hc => ?_⟩
  · rw [List.append_assoc, ← hcs, hsplit]
  · exact (List.mem_append.mp hc).imp List.mem_takeWhile_imp (hfront c)

theorem Item.take_front (h : i.take f cs = some (g, rest)) :
    ∃ front, cs = front ++ rest ∧ ∀ c ∈ front, i.TakesUp c := by
  unfold TakesUp
  cases i with
  | year =>
    obtain ⟨⟨y, r⟩, hyear, heq⟩ := Option.map_eq_some_iff.mp h
    cases heq
    obtain ⟨front, hcs, hfront⟩ := front_behind_blanks (takeYear_front hyear)
    refine ⟨front, hcs, fun c hc => ?_⟩
    rcases hfront c hc with hblank | hdigit | hplus | hminus
    · exact .inr (.inl hblank)
    · exact .inl hdigit
    · exact .inr (.inr (.inl hplus))
    · exact .inr (.inr (.inr (.inl hminus)))
  | month | day | hour | minute | second =>
    obtain ⟨⟨n, r⟩, htwo, heq⟩ := Option.map_eq_some_iff.mp h
    cases heq
    obtain ⟨front, hcs, hfront⟩ := front_behind_blanks (takeDigits_front htwo)
    exact ⟨front, hcs, fun c hc => (hfront c hc).elim (fun hb => .inr (.inl hb)) .inl⟩
  | char c =>
    obtain ⟨r, hchar, heq⟩ := Option.map_eq_some_iff.mp h
    cases heq
    cases cs with
    | nil => cases hchar
    | cons d ds =>
      rw [takeChar, Option.ite_none_right_eq_some] at hchar
      obtain ⟨rfl, heq⟩ := hchar
      cases heq
      refine ⟨[d], rfl, fun b hb => ?_⟩
      rw [List.mem_singleton.mp hb]
      exact .inr (.inr (.inr (.inr rfl)))
  | blanks =>
    cases h
    obtain ⟨front, hcs, hfront⟩ :=
      front_behind_blanks (P := fun _ => False) ⟨[], rfl, List.forall_mem_nil _⟩
    exact ⟨front, hcs, fun c hc => .inr (.inl ((hfront c hc).resolve_right id))⟩

/-- A pattern takes up what its fields take up, one after the other. -/
theorem Pattern.take_front {p : Pattern} (h : p.take f cs = some (g, rest)) :
    ∃ front, cs = front ++ rest ∧ ∀ c ∈ front, ∃ i ∈ p, i.TakesUp c := by
  induction p generalizing f cs with
  | nil =>
    cases h
    exact ⟨[], rfl, nofun⟩
  | cons i p ih =>
    obtain ⟨⟨f', rest'⟩, hitem, hrest⟩ := Option.bind_eq_some_iff.mp h
    obtain ⟨front, rfl, hfront⟩ := Item.take_front hitem
    obtain ⟨front', rfl, hfront'⟩ := ih hrest
    refine ⟨front ++ front', (List.append_assoc _ _ _).symm, fun c hc => ?_⟩
    rcases List.mem_append.mp hc with hc | hc
    · exact ⟨i, List.mem_cons_self, hfront c hc⟩
    · obtain ⟨j, hj, htakes⟩ := hfront' c hc
      exact ⟨j, List.mem_cons_of_mem i hj, htakes⟩

end TakenUp

end Newsfeed.Time
