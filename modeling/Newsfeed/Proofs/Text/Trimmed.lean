import Mathlib.Data.List.TakeWhile
import Newsfeed.Proofs.Text.Settled

/-!
Trimming and lowercasing can be done in either order: lowercasing leaves blanks alone and makes
none.
-/

namespace Newsfeed.Text

section Ends

variable {b c d : Char}

theorem isBlank_of_lowered (hc : isBlank c = false) (h : d ∈ lowerChar c) : isBlank d = false := by
  rcases lowerChar_cases h with ⟨-, rfl | rfl⟩ | ⟨r, hr, hrun, rfl⟩ | ⟨rfl, -, -⟩
  · decide
  · decide
  · obtain ⟨q, hq, hfirst, hlast⟩ := caseRuns_alphanumeric r hr
    refine isBlank_of_alphanumeric ((CharSet.has_iff _ _).mpr ⟨q, hq, ?_⟩)
    rw [CaseRun.toNat_image hr hrun]
    simp only [CaseRun.has, Bool.and_eq_true, decide_eq_true_eq] at hrun
    omega
  · exact hc

/-- A character that is no blank becomes some that are none, whatever stands around it. -/
theorem exists_lowered (hc : isBlank c = false) (before cs : List Char) : ∃ x xs,
    lowerFrom before (c :: cs) = (x :: xs) ++ lowerFrom (c :: before) cs ∧
      ∀ y ∈ x :: xs, isBlank y = false := by
  rw [lowerFrom]
  by_cases hsigma : c = '\u03a3'
  · rw [if_pos hsigma]
    refine ⟨_, [], rfl, fun y hy => ?_⟩
    rw [List.mem_singleton.mp hy]
    split <;> decide
  · obtain ⟨x, xs, hx⟩ := List.exists_cons_of_ne_nil (lowerChar_ne_nil c)
    rw [if_neg hsigma, hx]
    exact ⟨x, xs, rfl, fun y hy => isBlank_of_lowered hc (hx ▸ hy)⟩

theorem exists_lowerFrom_concat (before cs : List Char) (c : Char) : ∃ front,
    lowerFrom before (cs ++ [c]) = front ++ lowerFrom (cs.reverse ++ before) [c] := by
  induction cs generalizing before with
  | nil => exact ⟨[], rfl⟩
  | cons b cs ih =>
    obtain ⟨front, hfront⟩ := ih (b :: before)
    rw [List.cons_append, lowerFrom, hfront, ← List.append_assoc, List.reverse_cons,
      List.append_assoc cs.reverse, List.singleton_append]
    exact ⟨_, rfl⟩

end Ends

/-- Neither end of the text is a blank. -/
structure IsTrimmed (cs : List Char) : Prop where
  head : ∀ c ∈ cs.head?, isBlank c = false
  last : ∀ c ∈ cs.getLast?, isBlank c = false

section Texts

variable {cs front back : List Char}

theorem IsTrimmed.trimChars (h : IsTrimmed cs) : trimChars cs = cs :=
  trimChars_eq_self h.head h.last

theorem IsTrimmed.lowerChars (h : IsTrimmed cs) : IsTrimmed (lowerChars cs) where
  head d hd := by
    cases cs with
    | nil => cases hd
    | cons c cs =>
      obtain ⟨x, xs, hx, hnone⟩ := exists_lowered (h.head c rfl) [] cs
      rw [Text.lowerChars, hx] at hd
      obtain rfl : x = d := Option.some.inj hd
      exact hnone x List.mem_cons_self
  last d hd := by
    rcases List.eq_nil_or_concat' cs with rfl | ⟨cs, c, rfl⟩
    · cases hd
    · obtain ⟨front, hfront⟩ := exists_lowerFrom_concat [] cs c
      obtain ⟨x, xs, hx, hnone⟩ := exists_lowered (h.last c (by simp)) (cs.reverse ++ []) []
      rw [Text.lowerChars, hfront, hx, lowerFrom, List.append_nil,
        List.getLast?_append_of_ne_nil _ (List.cons_ne_nil _ _)] at hd
      exact hnone d (List.mem_of_getLast? hd)

theorem trimEnd_blanks (hlast : ∀ c ∈ cs.getLast?, isBlank c = false)
    (hback : ∀ c ∈ back, isBlank c) : trimEnd (cs ++ back) = cs := by
  have hcut : trimStart (cs ++ back).reverse = trimStart cs.reverse := by
    rw [List.reverse_append]
    exact List.dropWhile_append_of_pos fun c hc => hback c (List.mem_reverse.mp hc)
  rw [trimEnd, ← trimStart, hcut, trimStart_eq_self (by rwa [List.head?_reverse]),
    List.reverse_reverse]

theorem trimChars_between (hfront : ∀ c ∈ front, isBlank c) (hback : ∀ c ∈ back, isBlank c)
    (h : IsTrimmed cs) : trimChars (front ++ (cs ++ back)) = cs := by
  have hstart : trimStart (front ++ (cs ++ back)) = trimStart (cs ++ back) :=
    List.dropWhile_append_of_pos hfront
  rw [trimChars, hstart]
  cases cs with
  | nil =>
    have hnone : trimStart back = [] := List.dropWhile_eq_nil_iff.mpr hback
    rw [List.nil_append, hnone]
    rfl
  | cons c cs =>
    have hhead : trimStart (c :: cs ++ back) = c :: cs ++ back :=
      trimStart_eq_self fun d hd => h.head d hd
    rw [hhead, trimEnd_blanks h.last hback]

theorem head_trimStart (cs : List Char) : ∀ c ∈ (trimStart cs).head?, isBlank c = false := by
  intro c hc
  have hnot := List.head?_dropWhile_not isBlank cs
  rw [← trimStart, Option.mem_def.mp hc] at hnot
  exact hnot

/-- A text is what is left of it when trimmed, between blanks. -/
theorem exists_blanks (cs : List Char) : ∃ front back : List Char,
    cs = front ++ (trimChars cs ++ back) ∧ (∀ c ∈ front, isBlank c) ∧ (∀ c ∈ back, isBlank c) ∧
      IsTrimmed (trimChars cs) := by
  have hblank (ds : List Char) : ∀ c ∈ ds.takeWhile isBlank, isBlank c := fun c hc =>
    List.mem_takeWhile_imp hc
  have hends (ds : List Char) : ds = trimEnd ds ++ (ds.reverse.takeWhile isBlank).reverse := by
    rw [trimEnd, ← List.reverse_append, List.takeWhile_append_dropWhile, List.reverse_reverse]
  refine ⟨cs.takeWhile isBlank, ((trimStart cs).reverse.takeWhile isBlank).reverse, ?_, hblank cs,
    fun c hc => hblank _ c (List.mem_reverse.mp hc), fun c hc => ?_, fun c hc => ?_⟩
  · rw [trimChars, ← hends, trimStart, List.takeWhile_append_dropWhile]
  · rw [trimChars] at hc
    refine head_trimStart cs c ?_
    rw [hends (trimStart cs), List.head?_append, Option.mem_def, Option.mem_def.mp hc,
      Option.some_or]
  · refine head_trimStart (trimStart cs).reverse c ?_
    rwa [trimChars, trimEnd, List.getLast?_reverse] at hc

theorem lowerChars_between (hfront : ∀ c ∈ front, isBlank c) (hback : ∀ c ∈ back, isBlank c) :
    lowerChars (front ++ (cs ++ back)) = front ++ (lowerChars cs ++ back) := by
  rw [lowerChars_gap hfront]
  cases back with
  | nil => simp
  | cons b back =>
    have hrest := lowerChars_gap (fun c hc => hback c (List.mem_cons_of_mem b hc)) []
    rw [List.append_nil] at hrest
    rw [lowerChars_blank (hback b List.mem_cons_self), hrest]
    simp [lowerChars, lowerFrom]

/-- A text without its blanks at the ends is lowercased to its lowercase without them. -/
theorem trimChars_lowerChars (cs : List Char) :
    trimChars (lowerChars cs) = lowerChars (trimChars cs) := by
  obtain ⟨front, back, hcs, hfront, hback, htrimmed⟩ := exists_blanks cs
  conv_lhs => rw [hcs, lowerChars_between hfront hback]
  exact trimChars_between hfront hback htrimmed.lowerChars

end Texts

end Newsfeed.Text
