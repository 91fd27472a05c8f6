import Mathlib.Algebra.Group.Nat.Even
import Newsfeed.Proofs.FullText.Joined
import Newsfeed.Proofs.Listing.Outcome
import Newsfeed.Proofs.Predicate.Conjunction
import Newsfeed.Proofs.Search.Items
import Newsfeed.Proofs.Text.Lowered

/-!
Two searches with a blank between them. Each keeps its tokens and each token its meaning, so the
rows of both are those that pass one as well as the other.
-/

namespace Newsfeed.Search

open Newsfeed.Text Newsfeed.FullText

section Tokens

/-- A blank behind a search whose quotes are closed ends its last run. -/
theorem runsFrom_append {quoted : Bool} {cs : List Char}
    (hclosed : (cs.count '"' + quoted.toNat) % 2 = 0) {b : Char} (hb : isBlank b)
    (run rest : List Char) :
    runsFrom quoted run (cs ++ b :: rest) = runsFrom quoted run cs ++ runsFrom false [] rest := by
  induction cs generalizing quoted run with
  | nil =>
    have hopen : quoted = false := by
      cases quoted with
      | false => rfl
      | true => simp at hclosed
    rw [hopen, List.nil_append, runsFrom_blank hb, runsFrom]
  | cons c cs ih =>
    rw [List.cons_append, runsFrom, runsFrom]
    by_cases hquote : c = '"'
    · rw [if_pos hquote, if_pos hquote]
      apply ih
      rw [hquote, List.count_cons_self] at hclosed
      cases quoted <;> simp only [Bool.toNat_false, Bool.toNat_true, Bool.not_false,
        Bool.not_true] at hclosed ⊢ <;> omega
    · have hcount : (cs.count '"' + quoted.toNat) % 2 = 0 := by
        rwa [List.count_cons_of_ne hquote] at hclosed
      rw [if_neg hquote, if_neg hquote]
      split
      · rw [ih hcount, List.append_assoc]
      · exact ih hcount _

theorem tokenize_append {cs : List Char} (hclosed : Even (cs.count '"')) {b : Char}
    (hb : isBlank b) (rest : List Char) :
    tokenize (cs ++ b :: rest) = tokenize cs ++ tokenize rest := by
  have hcount : (cs.count '"' + false.toNat) % 2 = 0 := Nat.even_iff.mp hclosed
  rw [tokenize, runsFrom_append hcount hb, List.filterMap_append]
  rfl

end Tokens

section Signs

theorem mem_runsFrom {quoted : Bool} {run cs r : List Char} (hr : r ∈ runsFrom quoted run cs)
    {c : Char} (hc : c ∈ r) : c ∈ run ∨ c ∈ cs := by
  have hlast {run : List Char} (hr : r ∈ if run = [] then [] else [run]) : c ∈ run := by
    split at hr
    · cases hr
    · rwa [List.mem_singleton.mp hr] at hc
  induction cs generalizing quoted run with
  | nil => exact .inl (hlast hr)
  | cons d cs ih =>
    rw [runsFrom] at hr
    split at hr
    · exact (ih hr).imp_right (List.mem_cons_of_mem d)
    · split at hr
      · rcases List.mem_append.mp hr with hr | hr
        · exact .inl (hlast hr)
        · exact .inr (List.mem_cons_of_mem d ((ih hr).resolve_left List.not_mem_nil))
      · rcases ih hr with hmem | hmem
        · rcases List.mem_append.mp hmem with hmem | hmem
          · exact .inl hmem
          · rw [List.mem_singleton.mp hmem]
            exact .inr List.mem_cons_self
        · exact .inr (List.mem_cons_of_mem d hmem)

theorem mem_splitBlanks {run cs w : List Char} (hw : w ∈ splitBlanks run cs) {c : Char}
    (hc : c ∈ w) : c ∈ run ∨ c ∈ cs := by
  have hlast {run : List Char} (hw : w ∈ if run = [] then [] else [run]) : c ∈ run := by
    split at hw
    · cases hw
    · rwa [List.mem_singleton.mp hw] at hc
  induction cs generalizing run with
  | nil => exact .inl (hlast hw)
  | cons d cs ih =>
    rw [splitBlanks] at hw
    split at hw
    · rcases List.mem_append.mp hw with hw | hw
      · exact .inl (hlast hw)
      · exact .inr (List.mem_cons_of_mem d ((ih hw).resolve_left List.not_mem_nil))
    · rcases ih hw with hmem | hmem
      · rcases List.mem_append.mp hmem with hmem | hmem
        · exact .inl hmem
        · rw [List.mem_singleton.mp hmem]
          exact .inr List.mem_cons_self
      · exact .inr (List.mem_cons_of_mem d hmem)

theorem mem_trimChars {cs : List Char} {c : Char} (h : c ∈ trimChars cs) : c ∈ cs := by
  have hreverse := (List.dropWhile_suffix _).mem (List.mem_reverse.mp h)
  exact (List.dropWhile_suffix _).mem (List.mem_reverse.mp hreverse)

theorem mem_tokenize {cs : List Char} {t : Token} (ht : t ∈ tokenize cs) {c : Char}
    (hc : c ∈ t.text) : c ∈ cs := by
  obtain ⟨run, hrun, htoken⟩ := List.mem_filterMap.mp ht
  have hmem : c ∈ run := by
    obtain ⟨-, htoken⟩ := Option.ite_none_left_eq_some.mp htoken
    rw [← Option.some.inj htoken] at hc
    split at hc
    · exact List.mem_cons_of_mem _ (mem_trimChars hc)
    · exact mem_trimChars hc
  exact (mem_runsFrom hrun hmem).resolve_left List.not_mem_nil

/-- The characters for which a query is taken as it is written. -/
def signs : List Char := ['&', '|']

def Unsigned (s : String) : Prop := ∀ d ∈ signs, d ∉ s.toList

instance (s : String) : Decidable (Unsigned s) :=
  List.decidableBAll (fun d => d ∉ s.toList) signs

theorem unsigned_append {s t : String} : Unsigned (s ++ t) ↔ Unsigned s ∧ Unsigned t := by
  simp only [Unsigned, String.toList_append, List.mem_append, not_or, ← forall_and]

theorem sign_not_image {d : Char} (hd : d ∈ signs) : ¬isImage d.toNat := by
  simp only [signs, List.mem_cons, List.not_mem_nil, or_false] at hd
  rcases hd with rfl | rfl <;> simp [isImage]

/-- A term has the signs of its token only. -/
theorem freeTerm_unsigned {text : List Char} (h : ∀ d ∈ signs, d ∉ text) :
    Unsigned (freeTerm (lowerChars text)) := by
  have hlowered : ∀ d ∈ signs, d ∉ lowerChars text := fun d hd hmem =>
    h d hd (mem_of_mem_lowerChars (sign_not_image hd) hmem)
  intro d hd hmem
  unfold freeTerm at hmem
  split at hmem
  · have hfixed : ∀ d ∈ signs, d ∉ "(".toList ∧ d ∉ " <-> ".toList ∧ d ∉ ")".toList :=
      List.all_iff_forall_prop.mp (by decide)
    obtain ⟨hopening, hgap, hclosing⟩ := hfixed d hd
    rw [String.toList_append, String.toList_append, List.mem_append, List.mem_append,
      String.toList_intercalate] at hmem
    rcases hmem with (hmem | hmem) | hmem
    · exact hopening hmem
    · rcases mem_intercalate hmem with hmem | ⟨w, hw, hmem⟩
      · exact hgap hmem
      · obtain ⟨word, hword, rfl⟩ := List.mem_map.mp hw
        obtain ⟨cs, hcs, rfl⟩ := List.mem_map.mp hword
        rw [String.toList_ofList] at hmem
        exact hlowered d hd ((mem_splitBlanks hcs hmem).resolve_left List.not_mem_nil)
    · exact hclosing hmem
  · rw [String.toList_ofList] at hmem
    exact hlowered d hd hmem

theorem joinTerms_eq {terms : List String} (h : ∀ term ∈ terms, Unsigned term) :
    joinTerms terms = String.intercalate " & " terms := by
  have hnone : (String.intercalate " " terms).toList.any
      (fun c => decide (c = '&') || decide (c = '|')) = false := by
    rw [List.any_eq_false]
    intro c hc hsign
    have hmem : c ∈ signs := by simpa [signs] using hsign
    rw [String.toList_intercalate] at hc
    rcases mem_intercalate hc with hc | ⟨w, hw, hc⟩
    · have hapart : ∀ c ∈ signs, c ∉ " ".toList := List.all_iff_forall_prop.mp (by decide)
      exact hapart c hmem hc
    · obtain ⟨term, hterm, rfl⟩ := List.mem_map.mp hw
      exact h term hterm c hmem hc
  rw [joinTerms, hnone]
  rfl

theorem joinTerms_no_bar {terms : List String} (h : ∀ term ∈ terms, Unsigned term) :
    '|' ∉ (joinTerms terms).toList := by
  rw [joinTerms_eq h, String.toList_intercalate]
  intro hmem
  rcases mem_intercalate hmem with hmem | ⟨w, hw, hmem⟩
  · revert hmem
    decide
  · obtain ⟨term, hterm, rfl⟩ := List.mem_map.mp hw
    exact h term hterm '|' (by decide) hmem

theorem intercalate_append {separator : String} {ss ts : List String} (hs : ss ≠ [])
    (ht : ts ≠ []) : String.intercalate separator (ss ++ ts) =
      String.intercalate separator ss ++ separator ++ String.intercalate separator ts := by
  obtain ⟨t, ts, rfl⟩ := List.exists_cons_of_ne_nil ht
  induction ss with
  | nil => exact absurd rfl hs
  | cons s ss ih =>
    cases ss with
    | nil => simp [String.intercalate_cons_cons]
    | cons s' ss =>
      have hrest := ih (List.cons_ne_nil s' ss)
      rw [List.cons_append] at hrest ⊢
      rw [List.cons_append, String.intercalate_cons_cons, hrest, String.intercalate_cons_cons]
      simp only [String.append_assoc]

end Signs

section Parts

namespace Parts

/-- What has been gathered from some tokens and from others after them. -/
def andThen (p q : Parts) : Parts :=
  ⟨p.filters ++ q.filters, p.highlights ++ q.highlights, p.terms ++ q.terms⟩

def none : Parts := ⟨[], [], []⟩

/-- How many tokens have been looked at. -/
def size (p : Parts) : Nat := p.filters.length + p.terms.length

/-- The full-text query, if there are terms for one. -/
def query (language : String) (p : Parts) : List Predicate :=
  if p.terms = [] then [] else [.fullText language (joinTerms p.terms)]

/-- All that is asked. -/
def asked (language : String) (p : Parts) : List Predicate := p.filters ++ p.query language

theorem asked_ne_nil {language : String} {p : Parts} (h : 0 < p.size) : p.asked language ≠ [] := by
  intro hnone
  obtain ⟨hfilters, hquery⟩ := List.append_eq_nil_iff.mp hnone
  unfold query at hquery
  split at hquery
  · rename_i hterms
    rw [size, hfilters, hterms] at h
    exact absurd h (Nat.lt_irrefl 0)
  · cases hquery

end Parts

variable (ctx : Context) {labels : LabelLookup}

/-- A token means the same whatever stands before it. -/
theorem addToken_andThen (p q : Parts) (t : Token) :
    addToken ctx labels (p.andThen q) t = (addToken ctx labels q t).map p.andThen := by
  unfold addToken
  simp only
  split
  · split
    · simp [Parts.andThen, Except.map]
    · cases keywordFilter labels t.negated _ _ <;> simp [Parts.andThen, Except.map]
  · split <;> simp [Parts.andThen, Except.map]

theorem addTokens_andThen (p q : Parts) (ts : List Token) :
    addTokens ctx labels (p.andThen q) ts = (addTokens ctx labels q ts).map p.andThen := by
  induction ts generalizing q with
  | nil => rfl
  | cons t ts ih =>
    rw [addTokens, addTokens, addToken_andThen]
    cases addToken ctx labels q t with
    | error e => rfl
    | ok added => exact ih added

theorem addTokens_append (parts : Parts) (ts us : List Token) :
    addTokens ctx labels parts (ts ++ us) =
      (addTokens ctx labels parts ts).bind fun parts => addTokens ctx labels parts us := by
  induction ts generalizing parts with
  | nil => rfl
  | cons t ts ih =>
    rw [List.cons_append, addTokens, addTokens]
    cases addToken ctx labels parts t with
    | error e => rfl
    | ok added => exact ih added

/-- Tokens after others add to what has been gathered from these. -/
theorem addTokens_both {p q : Parts} {ts us : List Token}
    (hts : addTokens ctx labels .none ts = .ok p) (hus : addTokens ctx labels .none us = .ok q) :
    addTokens ctx labels .none (ts ++ us) = .ok (p.andThen q) := by
  have hnone : p.andThen .none = p := by simp [Parts.andThen, Parts.none]
  have hrest : addTokens ctx labels (p.andThen .none) us =
      (addTokens ctx labels .none us).map p.andThen := addTokens_andThen ctx p .none us
  rw [hus, hnone] at hrest
  rw [addTokens_append, hts]
  exact hrest

/-- A token gives one filter or one term. -/
theorem addToken_size {parts added : Parts} {t : Token}
    (h : addToken ctx labels parts t = .ok added) : added.size = parts.size + 1 := by
  have hfilter (p : Predicate) (highlights : List String) :
      (Parts.mk (parts.filters ++ [p]) highlights parts.terms).size = parts.size + 1 := by
    simp only [Parts.size, List.length_append, List.length_singleton]
    omega
  unfold addToken at h
  simp only at h
  split at h
  · split at h
    · rw [← Except.ok.inj h]
      exact hfilter _ _
    · obtain ⟨p, -, rfl⟩ := exists_of_map h
      exact hfilter _ _
  · split at h
    · rw [← Except.ok.inj h]
      exact hfilter _ _
    · rw [← Except.ok.inj h]
      simp only [Parts.size, List.length_append, List.length_singleton]
      omega

theorem addTokens_size {parts added : Parts} {ts : List Token}
    (h : addTokens ctx labels parts ts = .ok added) : added.size = parts.size + ts.length := by
  induction ts generalizing parts with
  | nil => rw [← Except.ok.inj h, List.length_nil, Nat.add_zero]
  | cons t ts ih =>
    obtain ⟨next, hadded, hrest⟩ := exists_of_bind h
    rw [ih hrest, addToken_size ctx hadded, List.length_cons]
    omega

theorem addToken_unsigned {parts added : Parts} {t : Token} (ht : ∀ d ∈ signs, d ∉ t.text)
    (hparts : ∀ term ∈ parts.terms, Unsigned term) (h : addToken ctx labels parts t = .ok added) :
    ∀ term ∈ added.terms, Unsigned term := by
  unfold addToken at h
  simp only at h
  split at h
  · split at h
    · rw [← Except.ok.inj h]
      exact hparts
    · obtain ⟨p, -, rfl⟩ := exists_of_map h
      exact hparts
  · split at h
    · rw [← Except.ok.inj h]
      exact hparts
    · rw [← Except.ok.inj h]
      have hterm := freeTerm_unsigned ht
      have hbang : Unsigned "!" := by simp [Unsigned, signs]
      intro term hmem
      rcases List.mem_append.mp hmem with hmem | hmem
      · exact hparts term hmem
      · rw [List.mem_singleton.mp hmem]
        split
        · exact unsigned_append.mpr ⟨hbang, hterm⟩
        · exact hterm

theorem addTokens_unsigned {parts added : Parts} {ts : List Token}
    (hts : ∀ t ∈ ts, ∀ d ∈ signs, d ∉ t.text) (hparts : ∀ term ∈ parts.terms, Unsigned term)
    (h : addTokens ctx labels parts ts = .ok added) : ∀ term ∈ added.terms, Unsigned term := by
  induction ts generalizing parts with
  | nil =>
    rw [← Except.ok.inj h]
    exact hparts
  | cons t ts ih =>
    obtain ⟨next, hadded, hrest⟩ := exists_of_bind h
    have hnext := addToken_unsigned ctx (hts t List.mem_cons_self) hparts hadded
    exact ih (fun u hu => hts u (List.mem_cons_of_mem t hu)) hnext hrest

end Parts

section Meaning

/-- No full-text query is refused for its syntax. -/
def WellFormed (terms : List (String × String)) : Prop :=
  ∀ term ∈ terms, ∀ query, FullText.compile term.1 term.2 ≠ .error (.malformed query)

/-- A search of its own: its quotes are closed, it has a token, and no sign for which its query would
be taken as it is written. -/
structure IsPart (text : String) : Prop where
  closed : Even (text.toList.count '"')
  unsigned : Unsigned text
  ne_nil : tokenize text.toList ≠ []

/-- What is asked of a search that has a token. -/
structure Gathered (parts : Parts) : Prop where
  size : 0 < parts.size
  worded : ∀ p ∈ parts.filters, Predicate.Each Predicate.Worded p
  unsigned : ∀ term ∈ parts.terms, Unsigned term

theorem Gathered.andThen {p q : Parts} (hp : Gathered p) (hq : Gathered q) :
    Gathered (p.andThen q) where
  size := by
    have hsize := hp.size
    simp only [Parts.size, Parts.andThen, List.length_append] at hsize ⊢
    omega
  worded := List.forall_mem_append.mpr ⟨hp.worded, hq.worded⟩
  unsigned := List.forall_mem_append.mpr ⟨hp.unsigned, hq.unsigned⟩

variable (ctx : Context) {labels : LabelLookup}

theorem exists_gathered (hlabels : ∀ caption, ∃ id?, labels caption = .ok id?) {text : String}
    (h : IsPart text) :
    ∃ parts, addTokens ctx labels .none (tokenize text.toList) = .ok parts ∧ Gathered parts := by
  have hnone : ∀ p ∈ Parts.none.filters, Predicate.Each Predicate.Worded p := by simp [Parts.none]
  obtain ⟨parts, hparts, hworded⟩ := addTokens_worded ctx hlabels hnone (tokenize text.toList)
  have hsize := addTokens_size ctx hparts
  have hlength := List.length_pos_iff.mpr h.ne_nil
  have hunsigned := addTokens_unsigned ctx
    (fun t ht d hd hmem => h.unsigned d hd (mem_tokenize ht hmem)) (by simp [Parts.none]) hparts
  exact ⟨parts, hparts, by omega, hworded, hunsigned⟩

theorem compile_gathered {text : String} {language : Option String} {parts : Parts}
    (hparts : addTokens ctx labels .none (tokenize text.toList) = .ok parts)
    (h : Gathered parts) : compile text language ctx labels =
      .ok ⟨Predicate.all (parts.asked (searchLanguage language ctx.prefs)), parts.highlights,
        none⟩ := by
  have hne : parts.asked (searchLanguage language ctx.prefs) ≠ [] := Parts.asked_ne_nil h.size
  have hcompile : compile text language ctx labels =
      (addTokens ctx labels .none (tokenize text.toList)).map fun parts =>
        let filters := parts.asked (searchLanguage language ctx.prefs)
        ⟨if filters.isEmpty then .never else Predicate.all filters, parts.highlights, none⟩ := rfl
  rw [hcompile, hparts]
  simp [Except.map, hne]

/-- The full-text query is there to be run. -/
def Parts.Runs (p : Parts) : Prop := .never ∉ p.filters ∧ p.terms ≠ []

theorem terms_asked {language : String} {parts : Parts} (h : Gathered parts)
    (term : String × String) :
    term ∈ (Predicate.all (parts.asked language)).fullTextTerms ↔
      parts.Runs ∧ term = (language, joinTerms parts.terms) := by
  constructor
  · intro hterm
    have hatoms : Predicate.Each
        (fun a => Predicate.Worded a ∨
          parts.terms ≠ [] ∧ a = .fullText language (joinTerms parts.terms))
        (Predicate.all (parts.asked language)) := by
      refine Predicate.each_all (.inl trivial) (.inl trivial) fun p hp a ha => ?_
      rcases List.mem_append.mp hp with hp | hp
      · exact .inl (h.worded p hp a ha)
      · unfold Parts.query at hp
        split at hp
        · cases hp
        · rename_i hterms
          rw [List.mem_singleton.mp hp] at ha
          exact .inr ⟨hterms, by simpa [Predicate.atoms] using ha⟩
    rcases hatoms _ ((Predicate.mem_fullTextTerms _ term.1 term.2).mp hterm) with hworded | heq
    · exact hworded.elim
    · obtain ⟨hterms, heq⟩ := heq
      obtain ⟨hlanguage, hquery⟩ := Predicate.fullText.inj heq
      refine ⟨⟨fun hnever => ?_, hterms⟩, Prod.ext hlanguage hquery⟩
      rw [Predicate.all, Parts.asked,
        Predicate.conjuncts_never (List.mem_append_left _ hnever)] at hterm
      cases hterm
  · rintro ⟨⟨hnever, hterms⟩, rfl⟩
    have hquery : parts.query language = [.fullText language (joinTerms parts.terms)] :=
      if_neg hterms
    refine Predicate.mem_terms_all ?_ ?_ <;> rw [Parts.asked, hquery]
    · simpa using hnever
    · simp

/-- The full-text query is not refused for its syntax. -/
def Readable (language : String) (parts : Parts) : Prop :=
  parts.terms ≠ [] → ∀ query,
    FullText.compile language (joinTerms parts.terms) ≠ .error (.malformed query)

/-- The index can be asked the full-text query. -/
def Answerable (language : String) (parts : Parts) : Prop :=
  parts.terms ≠ [] → ∃ tree, FullText.compile language (joinTerms parts.terms) = .ok tree

theorem wellFormed_iff {language : String} {parts : Parts} (h : Gathered parts) :
    WellFormed (Predicate.all (parts.asked language)).fullTextTerms ↔
      (parts.Runs → Readable language parts) := by
  constructor
  · intro hterms hruns _
    exact hterms (language, joinTerms parts.terms) ((terms_asked h _).mpr ⟨hruns, rfl⟩)
  · intro hreadable term hterm
    obtain ⟨hruns, rfl⟩ := (terms_asked h term).mp hterm
    exact hreadable hruns hruns.2

theorem accepted_iff {language : String} {parts : Parts} (h : Gathered parts) :
    Accepted (Predicate.all (parts.asked language)).fullTextTerms ↔
      (parts.Runs → Answerable language parts) := by
  constructor
  · intro hterms hruns _
    exact hterms (language, joinTerms parts.terms) ((terms_asked h _).mpr ⟨hruns, rfl⟩)
  · intro hanswerable term hterm
    obtain ⟨hruns, rfl⟩ := (terms_asked h term).mp hterm
    exact hanswerable hruns hruns.2

section Query

variable {language : String} {p q : Parts}

theorem joinTerms_andThen (hp : Gathered p) (hq : Gathered q) (hpterms : p.terms ≠ [])
    (hqterms : q.terms ≠ []) :
    joinTerms (p.andThen q).terms = joinTerms p.terms ++ " & " ++ joinTerms q.terms := by
  rw [joinTerms_eq (hp.andThen hq).unsigned, joinTerms_eq hp.unsigned, joinTerms_eq hq.unsigned]
  exact intercalate_append hpterms hqterms

/-- Where the language is known, what is not refused for its syntax is accepted. -/
theorem compile_of_readable (hlanguage : isLanguage language) {query : String}
    (h : ∀ malformed, FullText.compile language query ≠ .error (.malformed malformed)) :
    ∃ tree, FullText.compile language query = .ok tree := by
  cases hcompile : FullText.compile language query with
  | ok tree => exact ⟨tree, rfl⟩
  | error e =>
    cases e with
    | malformed m => exact absurd hcompile (h m)
    | unknownLanguage l =>
      unfold FullText.compile at hcompile
      rw [hlanguage] at hcompile
      cases hquery : (Query.read? query).bind Query.matchTree? <;> rw [hquery] at hcompile <;>
        cases hcompile

theorem compile_of_unknown (hlanguage : isLanguage language = false) (query : String) :
    FullText.compile language query = .error (.unknownLanguage language) := by
  rw [FullText.compile, hlanguage]
  rfl

/-- All that the query of both asks for is what the query of each does. -/
theorem query_andThen (hp : Gathered p) (hq : Gathered q) (hpr : Readable language p)
    (hqr : Readable language q) :
    Readable language (p.andThen q) ∧
      (Answerable language p → Answerable language q → Answerable language (p.andThen q)) ∧
      ∀ row, ((p.andThen q).query language).all (fun a => a.admits row) =
        ((p.query language).all (fun a => a.admits row) &&
          (q.query language).all fun a => a.admits row) := by
  by_cases hpterms : p.terms = []
  · have heq : (p.andThen q).terms = q.terms := by rw [Parts.andThen, hpterms, List.nil_append]
    simp only [Readable, Answerable, Parts.query, heq, if_pos hpterms, List.all_nil, Bool.true_and]
    exact ⟨hqr, fun _ hanswerable => hanswerable, fun row => trivial⟩
  by_cases hqterms : q.terms = []
  · have heq : (p.andThen q).terms = p.terms := by rw [Parts.andThen, hqterms, List.append_nil]
    simp only [Readable, Answerable, Parts.query, heq, if_pos hqterms, List.all_nil, Bool.and_true]
    exact ⟨hpr, fun hanswerable _ => hanswerable, fun row => trivial⟩
  have hboth : (p.andThen q).terms ≠ [] := by
    intro hnone
    exact hpterms (List.append_eq_nil_iff.mp hnone).1
  simp only [Readable, Answerable, Parts.query, if_neg hboth, if_neg hpterms, if_neg hqterms,
    List.all_cons, List.all_nil, Bool.and_true, joinTerms_andThen hp hq hpterms hqterms]
  cases hlanguage : isLanguage language with
  | false =>
    have hrefused := compile_of_unknown hlanguage
    refine ⟨fun _ query hquery => ?_, fun hanswerable => ?_, fun row => ?_⟩
    · rw [hrefused] at hquery
      cases hquery
    · obtain ⟨tree, htree⟩ := hanswerable hpterms
      rw [hrefused] at htree
      cases htree
    · simp [Predicate.admits, Predicate.truth, passes, hrefused, Truth.holds]
  | true =>
    obtain ⟨s, hs⟩ := compile_of_readable hlanguage (hpr hpterms)
    obtain ⟨t, ht⟩ := compile_of_readable hlanguage (hqr hqterms)
    obtain ⟨u, hu, hholds⟩ := compile_joined hs ht (joinTerms_no_bar hp.unsigned)
      (joinTerms_no_bar hq.unsigned)
    refine ⟨fun _ query hquery => ?_, fun _ _ _ => ⟨u, hu⟩, fun row => ?_⟩
    · rw [hu] at hquery
      cases hquery
    · simp [Predicate.admits, Predicate.truth, passes, hs, ht, hu, hholds, Truth.holds]

theorem runs_andThen (h : (p.andThen q).Runs) : .never ∉ p.filters ∧ .never ∉ q.filters := by
  have hnever := h.1
  simp only [Parts.andThen, List.mem_append, not_or] at hnever
  exact hnever

theorem readable_of_wellFormed (hp : Gathered p) (hnever : .never ∉ p.filters)
    (h : WellFormed (Predicate.all (p.asked language)).fullTextTerms) : Readable language p :=
  fun hterms => (wellFormed_iff hp).mp h ⟨hnever, hterms⟩ hterms

theorem answerable_of_accepted (hp : Gathered p) (hnever : .never ∉ p.filters)
    (h : Accepted (Predicate.all (p.asked language)).fullTextTerms) : Answerable language p :=
  fun hterms => (accepted_iff hp).mp h ⟨hnever, hterms⟩ hterms

theorem Answerable.readable (h : Answerable language p) : Readable language p := by
  intro hterms query hquery
  obtain ⟨tree, htree⟩ := h hterms
  rw [htree] at hquery
  cases hquery

theorem accepted_andThen (hp : Gathered p) (hq : Gathered q)
    (hpterms : Accepted (Predicate.all (p.asked language)).fullTextTerms)
    (hqterms : Accepted (Predicate.all (q.asked language)).fullTextTerms) :
    Accepted (Predicate.all ((p.andThen q).asked language)).fullTextTerms := by
  refine (accepted_iff (hp.andThen hq)).mpr fun hruns => ?_
  obtain ⟨hpn, hqn⟩ := runs_andThen hruns
  have hpa := answerable_of_accepted hp hpn hpterms
  have hqa := answerable_of_accepted hq hqn hqterms
  exact (query_andThen hp hq hpa.readable hqa.readable).2.1 hpa hqa

theorem wellFormed_andThen (hp : Gathered p) (hq : Gathered q)
    (hpterms : WellFormed (Predicate.all (p.asked language)).fullTextTerms)
    (hqterms : WellFormed (Predicate.all (q.asked language)).fullTextTerms) :
    WellFormed (Predicate.all ((p.andThen q).asked language)).fullTextTerms := by
  refine (wellFormed_iff (hp.andThen hq)).mpr fun hruns => ?_
  obtain ⟨hpn, hqn⟩ := runs_andThen hruns
  exact (query_andThen hp hq (readable_of_wellFormed hp hpn hpterms)
    (readable_of_wellFormed hq hqn hqterms)).1

/-- What passes two searches together is what passes each. -/
theorem admits_andThen (hp : Gathered p) (hq : Gathered q)
    (hpterms : WellFormed (Predicate.all (p.asked language)).fullTextTerms)
    (hqterms : WellFormed (Predicate.all (q.asked language)).fullTextTerms) (row : Facts) :
    (Predicate.all ((p.andThen q).asked language)).admits row =
      ((Predicate.all (p.asked language)).admits row &&
        (Predicate.all (q.asked language)).admits row) := by
  have hnever {ps : List Predicate} (h : .never ∈ ps) : (ps.all fun a => a.admits row) = false :=
    List.all_eq_false.mpr ⟨.never, h, by simp [Predicate.admits, Predicate.truth, Truth.holds]⟩
  have hfilters : (p.andThen q).filters = p.filters ++ q.filters := rfl
  simp only [Predicate.admits_all, Parts.asked, List.all_append, hfilters]
  by_cases hpn : .never ∈ p.filters
  · simp [hnever hpn]
  by_cases hqn : .never ∈ q.filters
  · simp [hnever hqn]
  have hpr := readable_of_wellFormed hp hpn hpterms
  have hqr := readable_of_wellFormed hq hqn hqterms
  rw [(query_andThen hp hq hpr hqr).2.2 row]
  ac_rfl

end Query

/-- Two searches with a blank between them are a conjunction. If neither is refused for the syntax
of its full-text query, both together are not, and select the rows that each of them selects, in any
language; if the index can be asked each, it can be asked both. -/
theorem selects_both (e : Engine) (ctx : Context) (hclear : ctx.token.tripped = false)
    (language : Option String) (a b : String) (ha : IsPart a) (hb : IsPart b) :
    ∃ x y z : CompiledSearch,
      compile a language ctx (e.labelLookup ctx) = .ok x ∧
      compile b language ctx (e.labelLookup ctx) = .ok y ∧
      compile (a ++ " " ++ b) language ctx (e.labelLookup ctx) = .ok z ∧
      (Accepted x.predicate.fullTextTerms → Accepted y.predicate.fullTextTerms →
        Accepted z.predicate.fullTextTerms) ∧
      (WellFormed x.predicate.fullTextTerms → WellFormed y.predicate.fullTextTerms →
        WellFormed z.predicate.fullTextTerms ∧
          ∀ allowArchived row, row ∈ e.store.matching ctx.owner allowArchived z.predicate ↔
            row ∈ e.store.matching ctx.owner allowArchived x.predicate ∧
              row ∈ e.store.matching ctx.owner allowArchived y.predicate) := by
  have hlabels := Engine.labelLookup_ok (e := e) hclear
  obtain ⟨p, hp, hpg⟩ := exists_gathered ctx hlabels ha
  obtain ⟨q, hq, hqg⟩ := exists_gathered ctx hlabels hb
  have htext : (a ++ " " ++ b).toList = a.toList ++ ' ' :: b.toList := by simp
  have htokens := tokenize_append ha.closed (b := ' ') (by decide) b.toList
  have hpq : addTokens ctx (e.labelLookup ctx) .none (tokenize (a ++ " " ++ b).toList) =
      .ok (p.andThen q) := by
    rw [htext, htokens]
    exact addTokens_both ctx hp hq
  have hboth := hpg.andThen hqg
  refine ⟨_, _, _, compile_gathered ctx hp hpg, compile_gathered ctx hq hqg,
    compile_gathered ctx hpq hboth, accepted_andThen hpg hqg, fun hx hy =>
      ⟨wellFormed_andThen hpg hqg hx hy, fun allowArchived row => ?_⟩⟩
  have hadmits := admits_andThen hpg hqg hx hy (e.store.facts row)
  simp only [Store.matching, List.mem_filter, hadmits, Bool.and_eq_true]
  tauto

def foxInTitle : String := "title:fox (red !den)"

def noWolf : String := "-wolf"

def foxReader : Context := ⟨1, .standard, ⟨1715342400, 0⟩, .clear⟩

def foxEngine : Engine where
  store := Store.ofHistory [.addArticle
    ⟨"fox", "Red Fox", none, "", none, 0, ⟨1715342400, 0⟩, ⟨1715342400, 0⟩⟩
    ⟨1, none, true, false, false, none, none, none, none, "", ""⟩]
  plugins := .none
  limits := .standard

/-- The row of the red fox has a fox in its title, no den and no wolf. -/
theorem selects_both_fox :
    IsPart foxInTitle ∧ IsPart noWolf ∧ ∃ z,
      compile (foxInTitle ++ " " ++ noWolf) none foxReader (foxEngine.labelLookup foxReader) =
        .ok z ∧
      WellFormed z.predicate.fullTextTerms ∧
      ∀ row ∈ foxEngine.store.joined true, row ∈ foxEngine.store.matching 1 true z.predicate := by
  have hfox : IsPart foxInTitle := ⟨by decide, by decide, by decide⟩
  have hwolf : IsPart noWolf := ⟨by decide, by decide, by decide⟩
  obtain ⟨x, y, z, hx, hy, hz, -, hboth⟩ :=
    selects_both foxEngine foxReader rfl none foxInTitle noWolf hfox hwolf
  let found (c : CompiledSearch) : Bool × Bool :=
    (c.predicate.fullTextTerms.all fun term => (FullText.compile term.1 term.2).isOk,
      (foxEngine.store.joined true).all fun row =>
        (foxEngine.store.matching 1 true c.predicate).contains row)
  have hxfound : (compile foxInTitle none foxReader (foxEngine.labelLookup foxReader)).map found =
      .ok (true, true) := by decide +kernel
  have hyfound : (compile noWolf none foxReader (foxEngine.labelLookup foxReader)).map found =
      .ok (true, true) := by decide +kernel
  rw [hx] at hxfound
  rw [hy] at hyfound
  obtain ⟨hxterms, hxrows⟩ := Prod.mk.inj (Except.ok.inj hxfound)
  obtain ⟨hyterms, hyrows⟩ := Prod.mk.inj (Except.ok.inj hyfound)
  have hformed {terms : List (String × String)}
      (h : (terms.all fun term => (FullText.compile term.1 term.2).isOk) = true) :
      WellFormed terms := by
    intro term hterm query hquery
    have hok := List.all_eq_true.mp h term hterm
    rw [hquery] at hok
    cases hok
  obtain ⟨hzformed, hrows⟩ := hboth (hformed hxterms) (hformed hyterms)
  refine ⟨hfox, hwolf, z, hz, hzformed, fun row hrow => (hrows true row).mpr ⟨?_, ?_⟩⟩
  · exact List.contains_iff_mem.mp (List.all_eq_true.mp hxrows row hrow)
  · exact List.contains_iff_mem.mp (List.all_eq_true.mp hyrows row hrow)

end Meaning

end Newsfeed.Search
