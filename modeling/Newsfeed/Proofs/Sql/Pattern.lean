import Mathlib.Data.List.Infix
import Mathlib.Data.List.TakeWhile
import Newsfeed.Predicate.Cell
import Newsfeed.Proofs.Text.Lowered
import Newsfeed.Sql.Like

/-!
What the operator LIKE does with a pattern, and that the pattern of a needle asks for the texts that
hold it. Pattern and text are read up to the first NUL.
-/

namespace Newsfeed.Sql

open Newsfeed.Text

/-- Letters of ASCII are the same in both cases. -/
def isSameLetter (c d : Char) : Bool := c.toLower == d.toLower

def onFirst (f : Char → List Char → Bool) : List Char → Bool
  | [] => false
  | c :: cs => f c cs

/-- A percent sign stands for any run of characters, an underscore for any one, and a character
after the escape for itself. -/
def matchesFrom (escape : Char) : Bool → List Char → List Char → Bool
  | false, [], text => text.isEmpty
  | true, [], _ => false
  | true, p :: ps, text =>
    onFirst (fun c cs => isSameLetter p c && matchesFrom escape false ps cs) text
  | false, p :: ps, text =>
    if p = '%' then text.tails.any (matchesFrom escape false ps)
    else if p = escape then matchesFrom escape true ps text
    else onFirst (fun c cs => (p = '_' || isSameLetter p c) && matchesFrom escape false ps cs) text

def isLike (escape : Char) (pattern text : String) : Bool :=
  matchesFrom escape false (untilNul pattern.toList) (untilNul text.toList)

theorem isSameLetter_of_small {c d : Char} (hc : ¬isCapital c) (hd : ¬isCapital d) :
    isSameLetter c d = (c == d) := by
  have hlower {e : Char} (he : ¬isCapital e) : e.toLower = e := by
    refine dif_neg fun hupper => he ?_
    exact ⟨UInt32.le_iff_toNat_le.mp hupper.1, UInt32.le_iff_toNat_le.mp hupper.2⟩
  rw [isSameLetter, hlower hc, hlower hd]

section Escaped

variable {w : List Char}

/-- A character with its escape, if it needs one, stands for itself. -/
theorem matchesFrom_char (c : Char) (ps text : List Char) :
    matchesFrom '\\' false (escapeLike [c] ++ ps) text =
      onFirst (fun d ds => isSameLetter c d && matchesFrom '\\' false ps ds) text := by
  unfold escapeLike
  split
  · rfl
  · rename_i hplain
    simp only [not_or] at hplain
    simp only [escapeLike, List.singleton_append, matchesFrom, if_neg hplain.1, if_neg hplain.2.2,
      hplain.2.1, decide_false, Bool.false_or]

theorem escapeLike_cons (c : Char) (w : List Char) :
    escapeLike (c :: w) = escapeLike [c] ++ escapeLike w := by
  simp only [escapeLike]
  split <;> rfl

/-- A needle with its signs escaped stands for itself. -/
theorem matchesFrom_escaped (hw : ∀ c ∈ w, ¬isCapital c) {text : List Char}
    (htext : ∀ c ∈ text, ¬isCapital c) (rest : List Char) :
    matchesFrom '\\' false (escapeLike w ++ rest) text =
      (w.isPrefixOf text && matchesFrom '\\' false rest (text.drop w.length)) := by
  induction w generalizing text with
  | nil => rfl
  | cons c w ih =>
    rw [escapeLike_cons, List.append_assoc, matchesFrom_char]
    cases text with
    | nil => rfl
    | cons d text =>
      have hsame := isSameLetter_of_small (hw c List.mem_cons_self) (htext d List.mem_cons_self)
      have hmore : ∀ e ∈ text, ¬isCapital e := fun e he => htext e (List.mem_cons_of_mem d he)
      have hrest := ih (fun e he => hw e (List.mem_cons_of_mem c he)) hmore
      rw [onFirst, hrest, hsame, List.isPrefixOf, Bool.and_assoc]
      rfl

theorem untilNul_eq_self {cs : List Char} (h : '\x00' ∉ cs) : untilNul cs = cs :=
  List.takeWhile_eq_self_iff.mpr fun c hc => by
    have hne : c ≠ '\x00' := fun heq => h (heq ▸ hc)
    simp [hne]

theorem untilNul_subset (cs : List Char) : untilNul cs ⊆ cs := (List.takeWhile_sublist _).subset

theorem mem_escapeLike {c : Char} (h : c ∈ escapeLike w) : c ∈ w ∨ c = '\\' := by
  induction w with
  | nil => cases h
  | cons d w ih =>
    unfold escapeLike at h
    split at h
    · simp only [List.mem_cons] at h
      rcases h with h | h | h
      · exact .inr h
      · exact .inl (List.mem_cons.mpr (.inl h))
      · exact (ih h).imp_left (List.mem_cons_of_mem d)
    · rcases List.mem_cons.mp h with h | h
      · exact .inl (List.mem_cons.mpr (.inl h))
      · exact (ih h).imp_left (List.mem_cons_of_mem d)

/-- The escapes before a NUL are not torn apart. -/
theorem untilNul_escapeLike (h : '\x00' ∈ w) (rest : List Char) :
    untilNul (escapeLike w ++ rest) = escapeLike (untilNul w) := by
  induction w with
  | nil => cases h
  | cons c w ih =>
    by_cases hc : c = '\x00'
    · rw [hc]
      rfl
    · have hw : '\x00' ∈ w := (List.mem_cons.mp h).resolve_left (Ne.symm hc)
      have hrest := ih hw
      have hcut : untilNul (c :: w) = c :: untilNul w := by simp [untilNul, hc]
      rw [hcut]
      unfold escapeLike
      split
      · simpa [untilNul, hc] using hrest
      · simpa [untilNul, hc] using hrest

theorem holdsRun_eq (needle text : List Char) :
    holdsRun needle text = text.tails.any needle.isPrefixOf := by
  induction text with
  | nil => cases needle <;> rfl
  | cons c text ih => rw [holdsRun, ih, List.tails, List.any_cons]

theorem matchesFrom_run {escape : Char} (ps text : List Char) :
    matchesFrom escape false ('%' :: ps) text =
      text.tails.any (matchesFrom escape false ps) := by
  rw [matchesFrom, if_pos rfl]

/-- A percent sign at the end stands for all that is left. -/
theorem matchesFrom_end (escape : Char) (text : List Char) :
    matchesFrom escape false ['%'] text = true := by
  rw [matchesFrom_run, List.any_eq_true]
  exact ⟨[], (List.mem_tails _ _).mpr (List.nil_suffix), rfl⟩

section Needle

variable {t : List Char} (ht : ∀ c ∈ t, ¬isCapital c) (hw : ∀ c ∈ w, ¬isCapital c)

include ht

theorem small_of_mem_tails {u : List Char} (hu : u ∈ t.tails) : ∀ c ∈ u, ¬isCapital c :=
  fun c hc => ht c (((List.mem_tails _ _).mp hu).subset hc)

include hw

/-- Between two percent signs the needle may stand anywhere. -/
theorem matchesFrom_anywhere :
    matchesFrom '\\' false ('%' :: (escapeLike w ++ ['%'])) t = holdsRun w t := by
  rw [matchesFrom_run, holdsRun_eq, Bool.eq_iff_iff, List.any_eq_true, List.any_eq_true]
  refine exists_congr fun u => and_congr_right fun hu => ?_
  rw [matchesFrom_escaped hw (small_of_mem_tails ht hu), matchesFrom_end, Bool.and_true]

/-- With nothing after the needle, the text ends with it. -/
theorem matchesFrom_behind :
    matchesFrom '\\' false ('%' :: (escapeLike w ++ [])) t = w.isSuffixOf t := by
  rw [matchesFrom_run, Bool.eq_iff_iff, List.any_eq_true, List.isSuffixOf_iff_suffix]
  have hsame {u : List Char} (hu : u ∈ t.tails) :
      matchesFrom '\\' false (escapeLike w ++ []) u ↔ w = u := by
    rw [matchesFrom_escaped hw (small_of_mem_tails ht hu), Bool.and_eq_true,
      List.isPrefixOf_iff_prefix, matchesFrom, List.isEmpty_iff, List.drop_eq_nil_iff]
    constructor
    · intro h
      exact h.1.eq_of_length_le h.2
    · intro h
      rw [h]
      exact ⟨List.prefix_rfl, Nat.le_refl _⟩
  constructor
  · rintro ⟨u, hu, h⟩
    rw [(hsame hu).mp h]
    exact (List.mem_tails _ _).mp hu
  · intro h
    have hu := (List.mem_tails _ _).mpr h
    exact ⟨w, hu, (hsame hu).mpr rfl⟩

end Needle

theorem no_nul_likePattern {needle : String} (h : '\x00' ∉ lowerChars needle.toList) :
    '\x00' ∉ (likePattern needle).toList := by
  rw [likePattern, String.toList_ofList]
  intro hmem
  simp only [List.mem_append, List.mem_singleton] at hmem
  rcases hmem with (hmem | hmem) | hmem
  · cases hmem
  · rcases mem_escapeLike hmem with hmem | hmem
    · exact h hmem
    · cases hmem
  · cases hmem

/-- A text in lowercase is like the pattern of a needle if it holds the needle. -/
theorem isLike_likePattern (needle text : String) :
    isLike '\\' (likePattern needle) (lowercase text) = holdsNeedle needle text := by
  have hw : ∀ c ∈ lowerChars needle.toList, ¬isCapital c := fun c => lowerChars_not_capital
  have ht : ∀ c ∈ untilNul (lowerChars text.toList), ¬isCapital c := fun c hc =>
    lowerChars_not_capital (untilNul_subset _ hc)
  rw [isLike, likePattern, lowercase, String.toList_ofList, String.toList_ofList, holdsNeedle]
  by_cases hnul : '\x00' ∈ lowerChars needle.toList
  · have hpattern : untilNul (['%'] ++ escapeLike (lowerChars needle.toList) ++ ['%']) =
        '%' :: (escapeLike (untilNul (lowerChars needle.toList)) ++ []) := by
      have hcut := untilNul_escapeLike hnul ['%']
      simpa [untilNul] using hcut
    rw [hpattern, if_pos (by simpa using hnul)]
    exact matchesFrom_behind ht fun c hc => hw c (untilNul_subset _ hc)
  · have hpattern : untilNul (['%'] ++ escapeLike (lowerChars needle.toList) ++ ['%']) =
        '%' :: (escapeLike (lowerChars needle.toList) ++ ['%']) :=
      untilNul_eq_self (by simpa [likePattern] using no_nul_likePattern hnul)
    rw [hpattern, if_neg (by simpa using hnul)]
    exact matchesFrom_anywhere ht hw

end Escaped

end Newsfeed.Sql
