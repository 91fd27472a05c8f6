import Mathlib.Data.List.Infix
import Newsfeed.Proofs.Listing.Selected
import Newsfeed.Proofs.Search.Word
import Newsfeed.Proofs.Store.Indexed

/-!
Whether an article is found by what stands in it. What is indexed are its runs, lowercased one by
one; what is asked for are the words of the lowercased search. The two are the same, except where
lowercasing takes a mark out of a letter.
-/

namespace Newsfeed

open Newsfeed.Text Newsfeed.FullText Predicate

namespace Engine

/-- The request is for all articles, and leaves out none but those that a search leaves out. -/
structure AsksAll (request : Request) : Prop where
  reference : Reference.ofAddress? request.feed request.isCategory = some (.special .all)
  view : request.viewMode = .allArticles ∨ request.viewMode = .adaptive
  start : request.start = none
  since : request.sinceId = none

/-- A run of letters and numbers, no keyword, is searched for among all articles. -/
structure Seeks (request : Request) (run : List Char) : Prop where
  all : AsksAll request
  search : request.search = some (String.ofList run)
  ne_nil : run ≠ []
  alphanumeric : ∀ c ∈ run, isAlphanumeric c
  noKeyword : Search.runQuery run ∉ Search.keywords

/-- The article is on some page of the request. -/
def Finds (e : Engine) (ctx : Context) (request : Request) (article : Int) : Prop :=
  ∃ offset answer, e.headlines ctx (request.fromOffset offset) = .ok answer ∧
    ∃ row ∈ answer.rows, row.id = article

/-- All articles, as a request selects them. -/
def everything (ctx : Context) (request : Request) : Selection :=
  .ofReference (.special .all) request.isCategory request.includeChildren ctx.prefs

/-- What a search for a run means. -/
def runSearch (ctx : Context) (request : Request) (run : List Char) : CompiledSearch :=
  ⟨.fullText (Search.searchLanguage request.searchLanguage ctx.prefs) (Search.runQuery run),
    [Search.runQuery run], none⟩

variable {e : Engine} {ctx : Context} {request : Request} {run : List Char}

theorem AsksAll.selected (h : AsksAll request) :
    Selection.ofAddress? request.feed request.isCategory request.includeChildren ctx.prefs =
      some (everything ctx request) := congrArg (Option.map _) h.reference

/-- Nothing but the search filters the rows. -/
theorem AsksAll.filter_eq (h : AsksAll request) (heading : Heading) (run : List Char) :
    (e.planFor ctx request (everything ctx request) heading
      (some (runSearch ctx request run))).query.filter = (runSearch ctx request run).predicate := by
  have hview : e.viewOf ctx request (everything ctx request) true = .always := by
    unfold viewOf
    rcases h.view with hmode | hmode <;> simp [hmode, ViewMode.filter]
  have hown : e.ownFilter ctx (everything ctx request) = .always := rfl
  simp only [planFor, queryOf, h.start, h.since, Option.isSome_some, hview, hown]
  rfl

namespace Seeks

theorem fromOffset (h : Seeks request run) (offset : Int) :
    Seeks (request.fromOffset offset) run :=
  ⟨⟨h.all.reference, h.all.view, h.all.start, h.all.since⟩, h.search, h.ne_nil, h.alphanumeric,
    h.noKeyword⟩

theorem searchMeaning (h : Seeks request run) (hplugins : e.plugins = .none) :
    e.searchMeaning ctx request = .ok (some (runSearch ctx request run)) := by
  have htext : searchText? request = some (String.ofList run) := by
    have hne : String.ofList run ≠ "" := by
      intro hempty
      exact h.ne_nil (by simpa using congrArg String.toList hempty)
    rw [searchText?, h.search, Option.map_some, trim, String.toList_ofList,
      Search.trimChars_run h.alphanumeric]
    simp [hne]
  have hmeaning : e.meaningOf ctx (String.ofList run) request.searchLanguage =
      .ok (runSearch ctx request run) := by
    rw [meaningOf, hplugins]
    exact Search.compile_run h.ne_nil h.alphanumeric h.noKeyword _ _ _
  rw [Engine.searchMeaning, htext]
  simp only [hmeaning]
  rfl

section Known

variable (h : Seeks request run)
  (hlanguage : isLanguage (Search.searchLanguage request.searchLanguage ctx.prefs))

include h hlanguage

theorem within : (Scan.Condition.ofPredicate (runSearch ctx request run).predicate).Within := by
  have hcondition : Scan.Condition.ofPredicate (runSearch ctx request run).predicate =
      .test (.member (.indexed (.phrase ⟨words (Search.runQuery run), false⟩)) none) := by
    rw [runSearch, Scan.Condition.ofPredicate, Scan.Condition.ofFullText,
      Search.compile_runQuery h.ne_nil h.alphanumeric hlanguage]
    rfl
  rw [hcondition]
  exact ⟨rfl, rfl⟩

theorem runnable : Each Runnable (runSearch ctx request run).predicate :=
  (each_atom (a := .fullText _ _) trivial).mpr
    ⟨_, Search.compile_runQuery h.ne_nil h.alphanumeric hlanguage⟩

theorem plan_eq (hreach : e.store.Reachable) (hplugins : e.plugins = .none)
    (hclear : ctx.token.tripped = false) :
    ∃ heading, e.plan ctx request (everything ctx request) =
      .ok (e.planFor ctx request (everything ctx request) heading
        (some (runSearch ctx request run))) := by
  have htried : e.triedSearch ctx (runSearch ctx request run) =
      .ok (runSearch ctx request run) := by
    rcases e.triedSearch_runnable ctx (h.runnable hlanguage) with htried | ⟨f, -, -, hnot⟩
    · exact htried
    · exact absurd (h.within hlanguage) hnot
  have hfor : e.searchFor ctx request = .ok (some (runSearch ctx request run)) := by
    rw [searchFor_eq hclear, h.searchMeaning hplugins, Except.bind]
    simp only [htried, Except.map]
  obtain ⟨-, heading, hheading⟩ :=
    (describe_cases (s := everything ctx request) hclear request.isCategory).resolve_right
      fun h => h.1 trivial
  exact ⟨heading, (plan_ok_iff hreach.sound hclear h.all.selected rfl).mpr
    ⟨heading, _, hheading, hfor, rfl⟩⟩

/-- In a known language every page is answered, with its part of the articles in which the words of
the run stand next to each other. -/
theorem headlines_eq (hreach : e.store.Reachable) (hplugins : e.plugins = .none)
    (hclear : ctx.token.tripped = false) :
    ∃ rows : List Joined,
      (∀ r, r ∈ rows ↔ e.store.IsRow r ∧ r.copy.owner = ctx.owner ∧
        words (Search.runQuery run) <:+: articleWords r.article.title r.article.content) ∧
      ∀ offset, ∃ answer, e.headlines ctx (request.fromOffset offset) = .ok answer ∧
        answer.queryError = none ∧ answer.rows = slice (e.pageSize request) offset.toNat
          (rows.map fun r => r.headline request.includeContent) := by
  have hsound := hreach.sound
  obtain ⟨heading, hplan⟩ := h.plan_eq (e := e) hlanguage hreach hplugins hclear
  generalize hp : e.planFor ctx request (everything ctx request) heading
    (some (runSearch ctx request run)) = p at hplan
  have hfilter : p.query.filter = (runSearch ctx request run).predicate :=
    hp ▸ h.all.filter_eq heading run
  have hw : (Scan.Condition.ofPredicate p.query.filter).Within := hfilter ▸ h.within hlanguage
  refine ⟨p.rows e.store, fun r => ?_, fun offset => ?_⟩
  · have hmem : r ∈ p.rows e.store ↔
        Store.Matches e.store p.query.owner p.query.allowArchived p.query.filter r :=
      (SortOrder.sort_perm _ _).mem_iff.trans (Store.mem_matching hsound)
    have hadmits (hr : e.store.IsRow r) : p.query.filter.admits (e.store.facts r) ↔
        words (Search.runQuery run) <:+: articleWords r.article.title r.article.content := by
      have hwords : (e.store.facts r).words = e.store.indexedWords r.article.id := rfl
      rw [hfilter, runSearch, Search.admits_runQuery h.ne_nil h.alphanumeric hlanguage, hwords,
        Store.indexedWords_eq hsound hreach.indexed hr.article]
    have howner : p.query.owner = ctx.owner := hp ▸ rfl
    have harchived : p.query.allowArchived = true := hp ▸ rfl
    rw [hmem]
    constructor
    · rintro ⟨hr, -, hown, hpasses⟩
      exact ⟨hr, hown.trans howner, (hadmits hr).mp hpasses⟩
    · rintro ⟨hr, hown, hfound⟩
      exact ⟨hr, .inr harchived, hown.trans howner.symm, (hadmits hr).mpr hfound⟩
  · have hanswer := headlines_fromOffset hsound hclear h.all.selected rfl hplan offset
    have hpage := page_of_within hsound hclear h.all.selected rfl hplan hw offset
    rcases fetch_cases (e := e) hclear (p.queryFrom offset) (outline p)
      (hfilter ▸ h.runnable hlanguage) with ⟨rows, hrows⟩ | ⟨f, -, -, hnot⟩
    · rw [page, hanswer, hrows] at hpage
      exact ⟨_, hanswer.trans hrows, hp ▸ rfl, Except.ok.inj hpage⟩
    · exact absurd hw hnot

end Known

end Seeks

/-- One article with nothing but a title, and a search of all articles. -/
def titled (title : String) : Engine :=
  ⟨Store.ofHistory [.addArticle ⟨"g", title, none, "", none, 0, arrival, arrival⟩
    ⟨1, none, true, false, false, none, none, none, none, "", ""⟩], .none, .standard⟩

end Engine

end Newsfeed
