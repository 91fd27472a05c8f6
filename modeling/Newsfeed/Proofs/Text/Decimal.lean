import Newsfeed.Text.Decimal

/-!
Decimal numbers are read back as they were written, the zeros in front of them too. So two numbers
that are padded to one width are written alike only if they are one number.
-/

namespace Newsfeed.Text

theorem digitsValue_toDigits (n : Nat) : digitsValue (Nat.toDigits 10 n) = n := by
  have hcore := Nat.ofDigitChars_toDigits (b := 10) (n := n) (by decide) (by decide)
  rwa [Nat.ofDigitChars_eq_foldl] at hcore

theorem readNat_toDigits (n : Nat) : readNat? (Nat.toDigits 10 n) = some n := by
  have hdigits : (Nat.toDigits 10 n).all Char.isDigit := List.all_eq_true.mpr fun c hc =>
    Nat.isDigit_of_mem_toDigits (by decide) (by decide) hc
  rw [readNat?, if_pos ⟨Nat.toDigits_ne_nil, hdigits⟩, digitsValue_toDigits]

theorem digitsValue_zeros (k : Nat) (ds : List Char) :
    digitsValue (List.replicate k '0' ++ ds) = digitsValue ds := by
  induction k with
  | zero => rfl
  | succ k ih =>
    rw [List.replicate_succ, List.cons_append]
    exact ih

theorem digitsValue_padded (width n : Nat) : digitsValue (padded width n).toList = n := by
  rw [padded, String.toList_ofList, digitsValue_zeros, digitsValue_toDigits]

theorem padded_inj {width m n : Nat} (h : padded width m = padded width n) : m = n := by
  rw [← digitsValue_padded width m, h, digitsValue_padded]

theorem isDigit_of_mem_padded {width n : Nat} {c : Char} (h : c ∈ (padded width n).toList) :
    c.isDigit := by
  rw [padded, String.toList_ofList, List.mem_append, List.mem_replicate] at h
  rcases h with ⟨-, rfl⟩ | h
  · rfl
  · exact Nat.isDigit_of_mem_toDigits (by decide) (by decide) h

theorem padded_ne_nil (width n : Nat) : (padded width n).toList ≠ [] := by
  rw [padded, String.toList_ofList]
  exact List.append_ne_nil_of_right_ne_nil _ Nat.toDigits_ne_nil

theorem exists_padded (width n : Nat) :
    ∃ c cs, (padded width n).toList = c :: cs ∧ c.isDigit := by
  obtain ⟨c, cs, hcs⟩ := List.exists_cons_of_ne_nil (padded_ne_nil width n)
  exact ⟨c, cs, hcs, isDigit_of_mem_padded (hcs ▸ List.mem_cons_self)⟩

theorem toNat_of_isDigit {c : Char} (h : c.isDigit) : 48 ≤ c.toNat ∧ c.toNat ≤ 57 := by
  simpa [Char.isDigit, UInt32.le_iff_toNat_le] using h

theorem isBlank_of_isDigit {c : Char} (h : c.isDigit) : isBlank c = false := by
  have hbounds := toNat_of_isDigit h
  rw [← Bool.not_eq_true, isBlank, CharSet.has_iff]
  rintro ⟨r, hr, hfrom, hto⟩
  have hapart : ∀ r ∈ blanks, r.2 < 48 ∨ 57 < r.1 := by decide
  have := hapart r hr
  omega

/-- The digits are those of a number; zeros may stand in front. -/
structure Spells (ds : List Char) (n : Nat) : Prop where
  digits : ∀ c ∈ ds, c.isDigit
  ne_nil : ds ≠ []
  value : digitsValue ds = n

theorem spells_padded (width n : Nat) : Spells (padded width n).toList n :=
  ⟨fun _ => isDigit_of_mem_padded, padded_ne_nil width n, digitsValue_padded width n⟩

namespace Spells

variable {ds : List Char} {n : Nat}

theorem exists_cons (h : Spells ds n) : ∃ c cs, ds = c :: cs ∧ c.isDigit := by
  obtain ⟨c, cs, rfl⟩ := List.exists_cons_of_ne_nil h.ne_nil
  exact ⟨c, cs, rfl, h.digits c List.mem_cons_self⟩

theorem trimStart (h : Spells ds n) (rest : List Char) : trimStart (ds ++ rest) = ds ++ rest := by
  obtain ⟨c, cs, rfl, hdigit⟩ := h.exists_cons
  exact List.dropWhile_cons_of_neg (by simp [isBlank_of_isDigit hdigit])

theorem readNat (h : Spells ds n) : readNat? ds = some n := by
  rw [readNat?, if_pos ⟨h.ne_nil, List.all_eq_true.mpr h.digits⟩, h.value]

theorem of_read (h : readNat? ds = some n) : Spells ds n := by
  rw [readNat?, Option.ite_none_right_eq_some, Option.some.injEq] at h
  exact ⟨List.all_eq_true.mp h.1.2, h.1.1, h.2⟩

theorem readInt (h : Spells ds n) : readInt? ds = some (n : Int) := by
  obtain ⟨c, cs, rfl, hdigit⟩ := h.exists_cons
  unfold readInt?
  split
  · rename_i heq
    obtain ⟨rfl, -⟩ := List.cons.inj heq
    cases hdigit
  · rename_i heq
    obtain ⟨rfl, -⟩ := List.cons.inj heq
    cases hdigit
  · rw [h.readNat]
    rfl

theorem readInt64 (h : Spells ds n) :
    readInt64? ds = if (n : Int) ≤ maxInt64 then some (n : Int) else none := by
  have hlow : minInt64 ≤ (n : Int) := by
    unfold minInt64
    omega
  simp [readInt64?, h.readInt, Option.filter, isInt64, hlow]

end Spells

/-- The ways to write a whole number: digits, with zeros in front or not, and at most one sign. -/
inductive WritesInt : List Char → Int → Prop
  | bare {ds : List Char} {n : Nat} (size : Spells ds n) : WritesInt ds n
  | plus {ds : List Char} {n : Nat} (size : Spells ds n) : WritesInt ('+' :: ds) n
  | minus {ds : List Char} {n : Nat} (size : Spells ds n) : WritesInt ('-' :: ds) (-n)

/-- A text is read as a whole number exactly if it writes one. -/
theorem readInt_iff {cs : List Char} {n : Int} : readInt? cs = some n ↔ WritesInt cs n := by
  constructor
  · intro h
    unfold readInt? at h
    split at h
    · obtain ⟨size, hsize, rfl⟩ := Option.map_eq_some_iff.mp h
      exact .plus (.of_read hsize)
    · obtain ⟨size, hsize, rfl⟩ := Option.map_eq_some_iff.mp h
      exact .minus (.of_read hsize)
    · obtain ⟨size, hsize, rfl⟩ := Option.map_eq_some_iff.mp h
      exact .bare (.of_read hsize)
  · intro h
    cases h with
    | bare size => exact size.readInt
    | plus size =>
      rw [readInt?, size.readNat]
      rfl
    | minus size =>
      rw [readInt?, size.readNat]
      rfl

theorem readInt64_iff {cs : List Char} {n : Int} :
    readInt64? cs = some n ↔ WritesInt cs n ∧ isInt64 n := by
  rw [readInt64?, Option.filter_eq_some_iff, readInt_iff]

end Newsfeed.Text
