import Newsfeed.Proofs.Search.Joined

/-!
Tokens in double quotes are read back as they are, with whatever blanks between them, and a search
can be cut at blanks where no quote is open.
-/

namespace Newsfeed.Search

open Newsfeed.Text

namespace Token

/-- The token as it is typed so that its blanks stay. -/
def quoted (t : Token) : List Char :=
  (if t.negated then ['-'] else []) ++ ('"' :: t.text ++ ['"'])

/-- The token can be typed in quotes: they hold neither a quote nor blanks at the ends, and no
hyphen is in front that would negate it. -/
structure IsQuotable (t : Token) : Prop where
  ne_nil : t.text ≠ []
  trimmed : trimChars t.text = t.text
  unquoted : '"' ∉ t.text
  unsigned : t.negated = false → t.text.head? ≠ some '-'

/-- What is left of a typed token without its quotes. -/
def run (t : Token) : List Char := (if t.negated then ['-'] else []) ++ t.text

variable {t : Token}

theorem yields_quoted (h : t.IsQuotable) : Yields t.quoted t.run := by
  have hbody : Yields ('"' :: t.text ++ ['"']) t.text :=
    Search.yields_quoted fun c hc hquote => h.unquoted (hquote ▸ hc)
  have hsign : Yields (if t.negated then ['-'] else []) (if t.negated then ['-'] else []) := by
    refine yields_self fun c hc => ?_
    split at hc
    · rw [List.mem_singleton.mp hc]
      decide
    · cases hc
  exact hsign.append hbody

theorem ofRun_run (h : t.IsQuotable) : Token.ofRun? t.run = some t := by
  obtain ⟨negated, text⟩ := t
  obtain ⟨c, rest, rfl⟩ := List.exists_cons_of_ne_nil h.ne_nil
  cases negated with
  | true => simp [run, ofRun?, h.trimmed]
  | false =>
    have hsign : c ≠ '-' := fun hc => h.unsigned rfl (congrArg some hc)
    simp [run, ofRun?, hsign, h.trimmed]

theorem run_ne_nil (h : t.IsQuotable) : t.run ≠ [] :=
  List.append_ne_nil_of_right_ne_nil _ h.ne_nil

end Token

/-- Pieces with blanks between them; without pieces there is nothing. -/
inductive Typed : List (List Char) → List Char → Prop
  | nothing : Typed [] []
  | pieces {xs : List (List Char)} {cs : List Char} (h : Spaced xs cs) : Typed xs cs

theorem tokenize_quoted {ts : List Token} (hts : ∀ t ∈ ts, t.IsQuotable) {cs : List Char}
    (hcs : Typed (ts.map Token.quoted) cs) : tokenize cs = ts := by
  have hruns : runsFrom false [] cs = ts.map Token.run := by
    generalize hxs : ts.map Token.quoted = xs at hcs
    cases hcs with
    | nothing =>
      rw [List.map_eq_nil_iff.mp hxs]
      rfl
    | pieces hspaced =>
      subst hxs
      refine runsFrom_spaced ?_ ?_ hspaced
      · exact List.forall₂_map_left_iff.mpr (List.forall₂_map_right_iff.mpr
          (List.forall₂_same.mpr fun t ht => Token.yields_quoted (hts t ht)))
      · exact List.forall_mem_map.mpr fun t ht => Token.run_ne_nil (hts t ht)
  rw [tokenize, hruns, List.filterMap_map]
  exact (List.filterMap_congr fun t ht => Token.ofRun_run (hts t ht)).trans List.filterMap_some

theorem tokenize_gap {cs gap : List Char} (hclosed : Even (cs.count '"')) (hne : gap ≠ [])
    (hgap : ∀ c ∈ gap, isBlank c) (rest : List Char) :
    tokenize (cs ++ gap ++ rest) = tokenize cs ++ tokenize rest := by
  obtain ⟨b, gap, rfl⟩ := List.exists_cons_of_ne_nil hne
  have hskip : tokenize (gap ++ rest) = tokenize rest := by
    rw [tokenize, runsFrom_skip fun c hc => hgap c (List.mem_cons_of_mem b hc)]
    rfl
  rw [List.append_assoc, List.cons_append, tokenize_append hclosed (hgap b List.mem_cons_self),
    hskip]

/-- Tokens that are typed in quotes come back, however many blanks there are between them; and
blanks behind closed quotes cut a search into two, each of which keeps its tokens. -/
theorem quoted_tokens_come_back :
    (∀ (ts : List Token) (cs : List Char), (∀ t ∈ ts, t.IsQuotable) →
      Typed (ts.map Token.quoted) cs → tokenize cs = ts) ∧
    ∀ cs gap rest : List Char, Even (cs.count '"') → gap ≠ [] → (∀ c ∈ gap, isBlank c) →
      tokenize (cs ++ gap ++ rest) = tokenize cs ++ tokenize rest :=
  ⟨fun _ _ hts hcs => tokenize_quoted hts hcs,
    fun _ _ rest hclosed hne hgap => tokenize_gap hclosed hne hgap rest⟩

/-- A negated token may begin with a hyphen of its own, and the last quote may stay open. -/
theorem quoted_tokens_come_back_hyphens :
    let phrase : Token := ⟨false, "red  fox".toList⟩
    let hyphens : Token := ⟨true, "-den".toList⟩
    tokenize (phrase.quoted ++ [' ', '\t'] ++ hyphens.quoted) = [phrase, hyphens] ∧
      tokenize ("a\"b \"c".toList ++ [' ', '\u3000'] ++ "-\"d e".toList) =
        [⟨false, "ab c".toList⟩] ++ [⟨true, "d e".toList⟩] := by
  intro phrase hyphens
  obtain ⟨hback, hcut⟩ := quoted_tokens_come_back
  have hphrase : phrase.IsQuotable := ⟨by decide, by decide, by decide, by decide⟩
  have hhyphens : hyphens.IsQuotable := ⟨by decide, by decide, by decide, by decide⟩
  have htabs : ∀ c ∈ [' ', '\t'], isBlank c := List.all_eq_true.mp (by decide)
  have hwide : ∀ c ∈ [' ', '\u3000'], isBlank c := List.all_eq_true.mp (by decide)
  have hspaced : Spaced [phrase.quoted, hyphens.quoted]
      (phrase.quoted ++ [' ', '\t'] ++ hyphens.quoted) :=
    .more (by decide) htabs (.last _)
  have hfirst : tokenize "a\"b \"c".toList = [⟨false, "ab c".toList⟩] := by decide +kernel
  have hsecond : tokenize "-\"d e".toList = [⟨true, "d e".toList⟩] := by decide +kernel
  refine ⟨hback [phrase, hyphens] _ (by simp [hphrase, hhyphens]) (.pieces hspaced), ?_⟩
  rw [hcut _ _ _ (by decide) (by decide) hwide, hfirst, hsecond]

end Newsfeed.Search
