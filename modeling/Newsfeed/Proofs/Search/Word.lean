import Newsfeed.Predicate.Meaning
import Newsfeed.Proofs.FullText.Runs
import Newsfeed.Proofs.Search.Items
import Newsfeed.Proofs.Text.Settled

/-!
A search for one run of letters and numbers. It asks for the words of the lowercased run, which is
the run itself lowercased, unless a mark that is no letter has come out of an `İ`.
-/

namespace Newsfeed.Search

open Newsfeed.Text Newsfeed.FullText

/-- What is typed for a run, as it is looked for. -/
def runQuery (run : List Char) : String := String.ofList (lowerChars run)

section Runs

variable {run : List Char} (hne : run ≠ []) (hrun : ∀ c ∈ run, isAlphanumeric c)

section Query

include hrun

theorem inWord_lowered : ∀ d ∈ lowerChars run, InWord d := by
  intro d hd
  rcases alphanumeric_or_dot hrun hd with hletter | ⟨-, rfl⟩
  · exact inWord_of_alphanumeric hletter
  · exact ⟨by decide, by decide, by decide, by decide⟩

include hne

theorem exists_words : ∃ w ws, words (runQuery run) = w :: ws := by
  have hless : '<' ∉ lowerChars run := fun hmem => (inWord_lowered hrun '<' hmem).less rfl
  have hruns : FullText.runsFrom false [] (lowerChars run) ≠ [] :=
    runsFrom_ne_nil hless (.inr (exists_alphanumeric hrun hne))
  refine List.exists_cons_of_ne_nil ?_
  rw [words, runQuery, String.toList_ofList]
  simpa using hruns

/-- The query is one phrase, in every language. -/
theorem compile_runQuery {language : String} (hlanguage : isLanguage language) :
    FullText.compile language (runQuery run) =
      .ok (.expr (.phrase ⟨words (runQuery run), false⟩)) := by
  obtain ⟨w, ws, hwords⟩ := exists_words hne hrun
  have hread := Query.read_text (lowerChars_ne_nil hne) (inWord_lowered hrun) hwords
  rw [FullText.compile, hlanguage, runQuery, hread, Option.bind_some,
    Query.matchTree_of_phrase (Query.phrase_run w ws), ← runQuery, hwords]
  rfl

theorem admits_runQuery {language : String} (hlanguage : isLanguage language) (row : Facts) :
    (Predicate.fullText language (runQuery run)).admits row ↔
      words (runQuery run) <:+: row.words := by
  obtain ⟨w, ws, hwords⟩ := exists_words hne hrun
  have hholds : (IndexExpr.phrase ⟨words (runQuery run), false⟩).holds row.words ↔
      ∃ start, Phrase.At row.words ⟨words (runQuery run), false⟩ start :=
    IndexExpr.holds_phrase (by simp [hwords])
  rw [Predicate.admits, Predicate.truth, FullText.passes, compile_runQuery hne hrun hlanguage]
  simp only [Truth.holds, MatchTree.holds, beq_iff_eq, Option.some.injEq]
  rw [hholds, Phrase.exists_at]

end Query

include hne hrun

omit hne in
theorem trimChars_run : trimChars run = run := by
  have hblank (c : Char) (hc : c ∈ run) : isBlank c = false := isBlank_of_alphanumeric (hrun c hc)
  exact trimChars_eq_self (fun c hc => hblank c (List.mem_of_mem_head? hc))
    fun c hc => hblank c (List.mem_of_getLast? hc)

theorem tokenize_run : tokenize run = [⟨false, run⟩] := by
  have hruns : runsFrom false [] run = [run] :=
    runsFrom_spaced (.cons (yields_word hrun) .nil) (by simpa using hne) (.last run)
  have htoken : Token.ofRun? run = some ⟨false, run⟩ := by
    obtain ⟨c, rest, rfl⟩ := List.exists_cons_of_ne_nil hne
    have hhyphen : c ≠ '-' := ne_of_alphanumeric (hrun c List.mem_cons_self) (by decide)
    simp [Token.ofRun?, hhyphen, trimChars_run hrun]
  rw [tokenize, hruns, List.filterMap_cons_some htoken, List.filterMap_nil]

theorem addToken_run (hkeyword : runQuery run ∉ keywords) (ctx : Context) (labels : LabelLookup)
    (parts : Parts) :
    addToken ctx labels parts ⟨false, run⟩ = .ok
      { parts with
        highlights := parts.highlights ++ [runQuery run]
        terms := parts.terms ++ [runQuery run] } := by
  have hinside := inWord_lowered hrun
  have hkey : keyAndValue (lowerChars run) = (lowerChars run, []) := by
    have hcolon : ∀ d ∈ lowerChars run, decide (d ≠ ':') = true := fun d hd =>
      decide_eq_true (hinside d hd).colon
    rw [keyAndValue, List.takeWhile_eq_self_iff.mpr hcolon, List.dropWhile_eq_nil_iff.mpr hcolon]
    rfl
  have hnone : Keyword.ofText? (lowerChars run) = none := by
    rw [Option.eq_none_iff_forall_ne_some]
    intro k hk
    exact hkeyword (Keyword.text_mem hk)
  have hterm : freeTerm (lowerChars run) = runQuery run := by
    have hblank : (lowerChars run).any isBlank = false :=
      List.any_eq_false.mpr fun d hd => by simp [(hinside d hd).blank]
    rw [freeTerm, hblank, if_neg Bool.false_ne_true, runQuery]
  simp only [addToken, hkey, hnone, hterm]
  split
  · exact absurd rfl (ne_of_alphanumeric (hrun '@' List.mem_cons_self) (by decide))
  · rfl

/-- The whole search is the query of the run. -/
theorem compile_run (hkeyword : runQuery run ∉ keywords) (asked : Option String) (ctx : Context)
    (labels : LabelLookup) :
    compile (String.ofList run) asked ctx labels =
      .ok ⟨.fullText (searchLanguage asked ctx.prefs) (runQuery run), [runQuery run], none⟩ := by
  have hjoin : joinTerms [runQuery run] = runQuery run := by
    simp [joinTerms]
  rw [compile, String.toList_ofList, tokenize_run hne hrun, addTokens,
    addToken_run hne hrun hkeyword, Except.bind, addTokens]
  simp [Except.map, hjoin, Predicate.all, Predicate.conjuncts?]

end Runs

end Newsfeed.Search
