import Newsfeed.Proofs.FullText.Reading

/-!
The words of a text, told without reading it from front to end: they are its maximal runs of letters
and numbers outside markup.
-/

namespace Newsfeed.FullText

open Newsfeed.Text

/-- The last `<` is not closed. -/
def EndsInMarkup (cs : List Char) : Prop :=
  ∃ outside inside, cs = outside ++ '<' :: inside ∧ '>' ∉ inside

/-- A maximal run of letters and numbers in a text, outside markup. -/
structure IsRun (text run : List Char) : Prop where
  ne_nil : run ≠ []
  alphanumeric : ∀ c ∈ run, isAlphanumeric c
  stands : ∃ before after, text = before ++ run ++ after ∧ ¬EndsInMarkup before ∧
    (∀ c ∈ before.getLast?, isAlphanumeric c = false) ∧
    ∀ c ∈ after.head?, isAlphanumeric c = false

theorem endsInMarkup_nil : ¬EndsInMarkup [] := by
  rintro ⟨outside, inside, hsplit, -⟩
  simp at hsplit

theorem endsInMarkup_concat (cs : List Char) (c : Char) :
    EndsInMarkup (cs ++ [c]) ↔ c = '<' ∨ c ≠ '>' ∧ EndsInMarkup cs := by
  constructor
  · rintro ⟨outside, inside, hsplit, hopen⟩
    rcases List.eq_nil_or_concat inside with rfl | ⟨inside, d, rfl⟩
    · exact .inl (by simpa using (List.append_inj' hsplit rfl).2)
    · have hlast : cs ++ [c] = (outside ++ '<' :: inside) ++ [d] := by simpa using hsplit
      obtain ⟨rfl, hd⟩ := List.append_inj' hlast rfl
      obtain rfl : c = d := by simpa using hd
      refine .inr ⟨?_, outside, inside, rfl, fun hmem => hopen (by simp [hmem])⟩
      rintro rfl
      exact hopen (by simp)
  · rintro (rfl | ⟨hc, outside, inside, rfl, hopen⟩)
    · exact ⟨cs, [], rfl, List.not_mem_nil⟩
    · exact ⟨outside, inside ++ [c], by simp, by simp [hopen, hc.symm]⟩

theorem ne_greater {c : Char} (h : isAlphanumeric c) : c ≠ '>' := by
  rintro rfl
  revert h
  decide +kernel

theorem endsInMarkup_append {run : List Char} (h : ∀ c ∈ run, isAlphanumeric c) (cs : List Char) :
    EndsInMarkup (cs ++ run) ↔ EndsInMarkup cs := by
  induction run generalizing cs with
  | nil => rw [List.append_nil]
  | cons c run ih =>
    have hc := h c List.mem_cons_self
    have hless : c ≠ '<' := ne_of_alphanumeric hc (by decide)
    have hgreater := ne_greater hc
    rw [List.append_cons, ih fun d hd => h d (List.mem_cons_of_mem c hd), endsInMarkup_concat]
    simp [hless, hgreater]

section Progress

/-- What has been read in front of the current run, and of the run. -/
structure HasRead (before run : List Char) (inTag : Bool) : Prop where
  alphanumeric : ∀ c ∈ run, isAlphanumeric c
  markup : inTag ↔ EndsInMarkup before
  inside : inTag → run = []
  outside : ¬inTag → ∀ c ∈ before.getLast?, isAlphanumeric c = false

variable {before run cs w : List Char} {inTag : Bool}

theorem hasRead_nil : HasRead [] [] false where
  alphanumeric := by simp
  markup := by simp [endsInMarkup_nil]
  inside := fun _ => rfl
  outside := by simp

/-- A run has begun outside markup only. -/
theorem HasRead.not_inTag (h : HasRead before run inTag) (hne : run ≠ []) : inTag = false := by
  rw [← Bool.not_eq_true]
  exact fun hinside => hne (h.inside hinside)

/-- Whether the reader is in markup after a character. -/
def tagAfter (inTag : Bool) (c : Char) : Bool :=
  if c = '<' then true else if c = '>' then false else inTag

theorem HasRead.tagAfter_iff (h : HasRead before run inTag) (c : Char) :
    tagAfter inTag c ↔ EndsInMarkup (before ++ run ++ [c]) := by
  rw [endsInMarkup_concat, endsInMarkup_append h.alphanumeric, ← h.markup, tagAfter]
  split
  · simp_all
  · split <;> simp_all

/-- Markup and what is no letter or number end the run. -/
theorem HasRead.ended (h : HasRead before run inTag) {c : Char}
    (hc : tagAfter inTag c || !isAlphanumeric c) :
    HasRead (before ++ run ++ [c]) [] (tagAfter inTag c) where
  alphanumeric := by simp
  markup := h.tagAfter_iff c
  inside := fun _ => rfl
  outside := fun houtside d hd => by
    obtain rfl : c = d := by simpa using hd
    simpa [houtside] using hc

/-- A letter or number goes on it, and leaves the reader outside markup. -/
theorem HasRead.goneOn (h : HasRead before run inTag) {c : Char}
    (hc : ¬(tagAfter inTag c || !isAlphanumeric c)) :
    HasRead before (run ++ [c]) (tagAfter inTag c) := by
  obtain ⟨htag, hletter⟩ : tagAfter inTag c = false ∧ isAlphanumeric c = true := by simpa using hc
  have hbefore : inTag = false := by
    rw [← Bool.not_eq_true]
    intro hinside
    simp [tagAfter, hinside, ne_greater hletter] at htag
  rw [htag, ← hbefore]
  refine ⟨fun d hd => ?_, h.markup, fun hinside => ?_, h.outside⟩
  · rcases List.mem_append.mp hd with hd | hd
    · exact h.alphanumeric d hd
    · rwa [List.mem_singleton.mp hd]
  · rw [hbefore] at hinside
    cases hinside

theorem runsFrom_cons (inTag : Bool) (run : List Char) (c : Char) (cs : List Char) :
    runsFrom inTag run (c :: cs) =
      if tagAfter inTag c || !isAlphanumeric c then
        (if run = [] then [] else [run]) ++ runsFrom (tagAfter inTag c) [] cs
      else runsFrom (tagAfter inTag c) (run ++ [c]) cs := rfl

/-- A run that has come to its end. -/
theorem HasRead.isRun (h : HasRead before run inTag) (hne : run ≠ [])
    (hcs : ∀ c ∈ cs.head?, isAlphanumeric c = false) : IsRun (before ++ run ++ cs) run := by
  have houtside : ¬inTag := Bool.not_eq_true _ ▸ h.not_inTag hne
  exact ⟨hne, h.alphanumeric, before, cs, rfl, h.markup.not.mp houtside, h.outside houtside, hcs⟩

theorem HasRead.isRun_of_mem (h : HasRead before run inTag) (hw : w ∈ runsFrom inTag run cs) :
    IsRun (before ++ run ++ cs) w := by
  induction cs generalizing before run inTag with
  | nil =>
    rw [runsFrom] at hw
    split at hw
    · cases hw
    · rename_i hne
      rw [List.mem_singleton.mp hw]
      exact h.isRun hne (by simp)
  | cons c cs ih =>
    rw [runsFrom_cons] at hw
    split at hw
    · rename_i hc
      rcases List.mem_append.mp hw with hw | hw
      · split at hw
        · cases hw
        · rename_i hne
          rw [List.mem_singleton.mp hw]
          refine h.isRun hne fun d hd => ?_
          obtain rfl : c = d := by simpa using hd
          -- Where the run is not empty, markup can only begin here.
          have houtside := h.not_inTag hne
          by_cases hless : c = '<'
          · rw [hless]
            exact punctuation_not_alphanumeric (by decide)
          · simpa [tagAfter, houtside, hless] using hc
      · have hrun := ih (h.ended hc) hw
        simpa using hrun
    · rename_i hc
      have hrun := ih (h.goneOn hc) hw
      simpa using hrun

/-- Some way into a text the reader has read just that much of it. -/
theorem HasRead.exists_later (h : HasRead before run inTag) (xs cs : List Char) :
    ∃ runs before' run' inTag', runsFrom inTag run (xs ++ cs) = runs ++ runsFrom inTag' run' cs ∧
      HasRead before' run' inTag' ∧ before' ++ run' = before ++ run ++ xs := by
  induction xs generalizing before run inTag with
  | nil => exact ⟨[], before, run, inTag, rfl, h, by simp⟩
  | cons c xs ih =>
    rw [List.cons_append, runsFrom_cons]
    split
    · rename_i hc
      obtain ⟨runs, before', run', inTag', hruns, hreading, hread⟩ := ih (h.ended hc)
      exact ⟨_ ++ runs, before', run', inTag', by rw [hruns, List.append_assoc], hreading,
        by simp [hread]⟩
    · rename_i hc
      obtain ⟨runs, before', run', inTag', hruns, hreading, hread⟩ := ih (h.goneOn hc)
      exact ⟨runs, before', run', inTag', hruns, hreading, by simp [hread]⟩

end Progress

variable {text run : List Char}

theorem IsRun.mem_runsFrom (h : IsRun text run) : run ∈ runsFrom false [] text := by
  obtain ⟨before, after, rfl, hmarkup, hbefore, hafter⟩ := h.stands
  obtain ⟨runs, read, begun, inTag, hruns, hreading, hread⟩ :=
    hasRead_nil.exists_later before (run ++ after)
  rw [List.nil_append, List.nil_append] at hread
  -- What stands in front of the run has been read, and nothing of it goes on.
  obtain rfl : begun = [] := by
    by_contra hne
    obtain ⟨others, c, rfl⟩ := (List.eq_nil_or_concat begun).resolve_left hne
    have hletter := hreading.alphanumeric c (by simp)
    rw [hbefore c (by rw [← hread, List.concat_eq_append, ← List.append_assoc,
      List.getLast?_concat]; rfl)] at hletter
    cases hletter
  rw [List.append_nil] at hread
  obtain rfl : inTag = false := by
    rw [← Bool.not_eq_true, hreading.markup, hread]
    exact hmarkup
  rw [List.append_assoc, hruns, runsFrom_append h.alphanumeric, List.nil_append]
  refine List.mem_append_right _ ?_
  cases after with
  | nil => simp [runsFrom, h.ne_nil]
  | cons c after =>
    rw [runsFrom_cons, if_pos (by simp [hafter c rfl]), if_neg h.ne_nil]
    exact List.mem_cons_self

/-- The runs that are read are the maximal ones. -/
theorem mem_runsFrom_iff : run ∈ runsFrom false [] text ↔ IsRun text run := by
  constructor
  · intro h
    simpa using hasRead_nil.isRun_of_mem h
  · exact IsRun.mem_runsFrom

/-- Where there is no markup, a letter or number is in some run. -/
theorem runsFrom_ne_nil {run cs : List Char} (hless : '<' ∉ cs)
    (h : run ≠ [] ∨ ∃ c ∈ cs, isAlphanumeric c) : runsFrom false run cs ≠ [] := by
  induction cs generalizing run with
  | nil =>
    have hrun : run ≠ [] := by simpa using h
    rw [runsFrom, if_neg hrun]
    exact List.cons_ne_nil run []
  | cons c cs ih =>
    obtain ⟨hc, hcs⟩ := List.ne_and_not_mem_of_not_mem_cons hless
    have htag : tagAfter false c = false := by simp [tagAfter, hc.symm]
    rw [runsFrom_cons, htag, Bool.false_or]
    by_cases hletter : isAlphanumeric c = true
    · rw [if_neg (by simp [hletter])]
      exact ih hcs (.inl (by simp))
    · rw [if_pos (by simp [hletter])]
      rcases h with hrun | ⟨d, hd, hdletter⟩
      · rw [if_neg hrun]
        exact List.cons_ne_nil run _
      · have hmem : d ∈ cs := by
          rcases List.mem_cons.mp hd with rfl | hmem
          · exact absurd hdletter hletter
          · exact hmem
        exact List.append_ne_nil_of_right_ne_nil _ (ih hcs (.inr ⟨d, hmem, hdletter⟩))

end Newsfeed.FullText
