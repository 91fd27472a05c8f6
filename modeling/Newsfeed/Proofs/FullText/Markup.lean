import Mathlib.Data.List.TakeWhile
import Newsfeed.Proofs.FullText.Runs

/-!
What is indexed of an article, told in two passes: a separator takes the place of all markup, and
what is left falls into its maximal runs of letters and numbers. The reader, which goes over a text
once, finds the same runs in the same order.
-/

namespace Newsfeed.FullText

open Newsfeed.Text

/-- The maximal runs of letters and numbers in a text, in their order. That some of the text may be
markup is not looked at. -/
def maximalRuns (cs : List Char) : List (List Char) :=
  (cs.splitOnP fun c => !isAlphanumeric c).filter (· ≠ [])

/-- What follows the next `>`, which closes markup; nothing, if the markup stays open. -/
def behindMarkup (cs : List Char) : List Char := (cs.dropWhile (· ≠ '>')).tail

theorem length_behindMarkup_le (cs : List Char) : (behindMarkup cs).length ≤ cs.length := by
  rw [behindMarkup, List.length_tail]
  exact Nat.le_trans (Nat.sub_le _ 1) (List.dropWhile_sublist _).length_le

/-- A text with a separator in place of each stretch of markup, which goes from a `<` up to the next
`>`, or to the end where none follows. -/
def withoutMarkup (separator : Char) : List Char → List Char
  | [] => []
  | c :: cs =>
    if c = '<' then separator :: withoutMarkup separator (behindMarkup cs)
    else c :: withoutMarkup separator cs
termination_by cs => cs.length
decreasing_by
  · exact Nat.lt_succ_of_le (length_behindMarkup_le cs)
  · exact Nat.lt_succ_self cs.length

variable {separator c : Char} {run cs inside : List Char}

theorem maximalRuns_split (hc : isAlphanumeric c = false) (before after : List Char) :
    maximalRuns (before ++ c :: after) = maximalRuns before ++ maximalRuns after := by
  rw [maximalRuns, List.splitOnP_append_cons _ _ (by simp [hc]), List.filter_append]
  rfl

theorem maximalRuns_run (h : ∀ c ∈ run, isAlphanumeric c) :
    maximalRuns run = if run = [] then [] else [run] := by
  have hwhole : (run.splitOnP fun c => !isAlphanumeric c) = [run] :=
    List.splitOnP_eq_singleton fun c hc => by simp [h c hc]
  rw [maximalRuns, hwhole]
  split <;> simp [*]

theorem behindMarkup_cons (c : Char) (cs : List Char) :
    behindMarkup (c :: cs) = if c = '>' then cs else behindMarkup cs := by
  unfold behindMarkup
  rw [List.dropWhile_cons]
  split <;> simp_all

theorem behindMarkup_open (h : '>' ∉ inside) : behindMarkup inside = [] := by
  have hnone : inside.dropWhile (· ≠ '>') = [] :=
    List.dropWhile_eq_nil_iff.mpr fun d hd => by
      have hne : d ≠ '>' := fun heq => h (heq ▸ hd)
      simpa using hne
  rw [behindMarkup, hnone, List.tail_nil]

/-- In markup the reader finds nothing; a `<` inside it starts nothing new. -/
theorem runsFrom_inMarkup (cs : List Char) :
    runsFrom true [] cs = runsFrom false [] (behindMarkup cs) := by
  induction cs with
  | nil => rfl
  | cons c cs ih =>
    rw [runsFrom_cons, behindMarkup_cons]
    by_cases hclosed : c = '>'
    · have htag : tagAfter true c = false := by simp [tagAfter, hclosed]
      have hsign : isAlphanumeric c = false :=
        Bool.eq_false_iff.mpr fun hletter => ne_greater hletter hclosed
      rw [htag, hsign, if_pos hclosed]
      rfl
    · have htag : tagAfter true c = true := by simp [tagAfter, hclosed]
      rw [htag, if_neg hclosed]
      exact ih

/-- Markup and what is no letter or number end the run that has begun; both are such characters once
a separator stands for the markup. -/
theorem runsFrom_eq_maximalRuns (hseparator : isAlphanumeric separator = false)
    (hrun : ∀ c ∈ run, isAlphanumeric c) (cs : List Char) :
    runsFrom false run cs = maximalRuns (run ++ withoutMarkup separator cs) := by
  induction cs using withoutMarkup.induct generalizing run with
  | case1 =>
    rw [withoutMarkup, List.append_nil, maximalRuns_run hrun]
    rfl
  | case2 cs ih =>
    rw [withoutMarkup, if_pos rfl, maximalRuns_split hseparator, maximalRuns_run hrun, runsFrom_cons]
    have hinside := runsFrom_inMarkup cs
    rw [ih (by simp), List.nil_append] at hinside
    rw [← hinside]
    rfl
  | case3 c cs hless ih =>
    have htag : tagAfter false c = false := by simp [tagAfter, hless]
    rw [withoutMarkup, if_neg hless, runsFrom_cons, htag, Bool.false_or]
    cases hletter : isAlphanumeric c with
    | true =>
      have hlonger : ∀ d ∈ run ++ [c], isAlphanumeric d := by
        intro d hd
        rcases List.mem_append.mp hd with hd | hd
        · exact hrun d hd
        · rwa [List.mem_singleton.mp hd]
      have hread := ih hlonger
      rw [← List.append_cons] at hread
      rw [← hread]
      rfl
    | false =>
      rw [maximalRuns_split hletter, maximalRuns_run hrun, ← List.nil_append (withoutMarkup _ cs),
        ← ih (by simp)]
      rfl

theorem words_eq_maximalRuns (hseparator : isAlphanumeric separator = false) (s : String) :
    words s = (maximalRuns (withoutMarkup separator s.toList)).map fun run =>
      String.ofList (lowerChars run) := by
  rw [words, runsFrom_eq_maximalRuns hseparator (by simp), List.nil_append]

/-- Markup that stays open to the end holds no runs. -/
theorem runsFrom_openMarkup (h : '>' ∉ inside) (inTag : Bool) (run cs : List Char) :
    runsFrom inTag run (cs ++ '<' :: inside) = runsFrom inTag run cs := by
  induction cs generalizing inTag run with
  | nil =>
    have hinside : runsFrom true [] inside = [] := by
      rw [runsFrom_inMarkup, behindMarkup_open h]
      rfl
    rw [List.nil_append, runsFrom_cons]
    simp [tagAfter, hinside, runsFrom]
  | cons c cs ih => rw [List.cons_append, runsFrom_cons, runsFrom_cons, ih, ih]

theorem words_openMarkup {inside : String} (h : '>' ∉ inside.toList) (front : String) :
    words (front ++ "<" ++ inside) = words front := by
  have htext : (front ++ "<" ++ inside).toList = front.toList ++ '<' :: inside.toList := by simp
  rw [words, htext, runsFrom_openMarkup h, words]

/-- Once a separator, any character that is no letter or number, has taken the place of all markup,
what is indexed are the maximal runs of the title and then those of the content, lowercased one by
one. Each text has markup of its own: what the title leaves open takes the rest of the title, and
nothing of the content. -/
theorem indexed_in_two_passes (separator : Char) (hseparator : isAlphanumeric separator = false) :
    (∀ title content : String, indexText title content = String.intercalate " "
      ((maximalRuns (withoutMarkup separator title.toList) ++
        maximalRuns (withoutMarkup separator content.toList)).map fun run =>
          String.ofList (lowerChars run))) ∧
    ∀ front inside content : String, '>' ∉ inside.toList →
      indexText (front ++ "<" ++ inside) content = indexText front content := by
  constructor
  · intro title content
    rw [indexText, articleWords, words_eq_maximalRuns hseparator, words_eq_maximalRuns hseparator,
      List.map_append]
  · intro front inside content hopen
    rw [indexText, articleWords, words_openMarkup hopen, indexText, articleWords]

/-- Markup cuts a word in two, what is opened inside markup is closed with it, and a `>` by itself is
like any other sign. -/
theorem indexed_in_two_passes_fox :
    isAlphanumeric ' ' = false ∧ '>' ∉ "i den".toList ∧
      indexText "Red<b <i>FOX</i> <i den" "no>w 3<!-- a" = "red fox no w 3" ∧
      indexText ("Red " ++ "<" ++ "i den") "now" = indexText "Red " "now" := by
  have hblank : isAlphanumeric ' ' = false := by decide +kernel
  have hopen : '>' ∉ "i den".toList := by decide
  obtain ⟨htold, hrest⟩ := indexed_in_two_passes ' ' hblank
  have htitle : withoutMarkup ' ' "Red<b <i>FOX</i> <i den".toList = "Red FOX   ".toList := by
    simp [withoutMarkup, behindMarkup]
  have hcontent : withoutMarkup ' ' "no>w 3<!-- a".toList = "no>w 3 ".toList := by
    simp [withoutMarkup, behindMarkup]
  refine ⟨hblank, hopen, ?_, hrest "Red " "i den" "now" hopen⟩
  rw [htold, htitle, hcontent]
  decide +kernel

end Newsfeed.FullText
