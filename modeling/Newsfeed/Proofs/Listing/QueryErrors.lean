import Newsfeed.Proofs.Counters.Agreement
import Newsfeed.Proofs.Listing.Outcome

/-!
Answers that tell of an error in their search. A search that the store refuses is answered without
rows. A plugin may tell of an error of its own beside a filter that can be run: that error is
carried along, and the rows are those that the filter lets through.
-/

namespace Newsfeed

/-- The search without a word about an error. -/
def CompiledSearch.silent (c : CompiledSearch) : CompiledSearch := { c with error := none }

def Answer.silent (a : Answer) : Answer := { a with queryError := none }

/-- The plugins, but for the errors that they tell of in searches. -/
def Plugins.silent (p : Plugins) : Plugins :=
  { p with searches := p.searches.map fun translate text ctx =>
      (translate text ctx).map CompiledSearch.silent }

def Engine.silent (e : Engine) : Engine := { e with plugins := e.plugins.silent }

theorem Plugins.silent_searchFor (p : Plugins) (text : String) (ctx : Context) :
    p.silent.searchFor? text ctx = (p.searchFor? text ctx).map CompiledSearch.silent := by
  simp only [searchFor?, Plugins.silent]
  induction p.searches with
  | nil => rfl
  | cons translate rest ih =>
    rw [List.map_cons, List.findSome?_cons, List.findSome?_cons]
    cases htranslate : translate text ctx with
    | none => simpa only [htranslate, Option.map_none] using ih
    | some c => simp only [htranslate, Option.map_some]

theorem Search.compile_error {text : String} {language : Option String} {ctx : Context}
    {labels : LabelLookup} {c : CompiledSearch}
    (h : Search.compile text language ctx labels = .ok c) : c.error = none := by
  obtain ⟨parts, -, rfl⟩ := exists_of_map h
  rfl

theorem Selection.kind_of_pluginFeed {s : Selection} {id : Int} (h : s.pluginFeed? = some id) :
    s.kind = .plugin id := by
  unfold pluginFeed? at h
  cases hkind : s.kind <;> simp_all

namespace Engine

variable {e : Engine} {ctx : Context} {request : Request} {s : Selection} {answer : Answer}

/-- An answer is given by a plugin, or it is that to a selection. -/
theorem headlines_cases (hok : e.headlines ctx request = .ok answer) :
    (∃ id, Reference.ofAddress? request.feed request.isCategory = some (.plugin id) ∧
      e.plugins.feedHeadlines id request ctx = .ok (some answer)) ∨
    ∃ s, Selection.ofAddress? request.feed request.isCategory request.includeChildren ctx.prefs =
      some s ∧ s.pluginFeed? = none := by
  unfold headlines at hok
  by_cases htripped : ctx.token.tripped = true
  · simp [htripped] at hok
  · cases hs : Selection.ofAddress? request.feed request.isCategory request.includeChildren
        ctx.prefs with
    | none => simp [htripped, hs] at hok
    | some s =>
      cases hplugin : s.pluginFeed? with
      | none => exact .inr ⟨s, rfl, hplugin⟩
      | some id =>
        have hkind : s.kind = .plugin id := Selection.kind_of_pluginFeed hplugin
        simp only [if_neg htripped, hs, hplugin] at hok
        obtain ⟨answer?, hasked, hanswer⟩ := exists_of_bind hok
        cases answer? with
        | none => cases hanswer
        | some given =>
          obtain rfl := Except.ok.inj hanswer
          exact .inl ⟨id, hkind ▸ (Selection.kind_of_address hs).1, hasked⟩

/-- The rows that are read have nothing to do with an error that is told of beside them. -/
theorem fetch_ok {query : ListingQuery} {outline : Answer}
    (h : e.fetch ctx query outline = .ok answer) :
    answer.queryError = outline.queryError ∧
      e.silent.fetch ctx query outline.silent = .ok answer.silent := by
  have hreads : e.silent.reads ctx = e.reads ctx := rfl
  unfold fetch at h ⊢
  by_cases hnever : query.filter.isNever = true
  · rw [if_pos hnever] at h ⊢
    cases h
    exact ⟨rfl, rfl⟩
  · rw [if_neg hnever] at h ⊢
    by_cases htripped : ctx.token.tripped = true
    · rw [if_pos htripped] at h
      cases h
    · rw [if_neg htripped] at h ⊢
      obtain ⟨rows, hrows, rfl⟩ := exists_of_map h
      rw [hreads, hrows]
      exact ⟨rfl, rfl⟩

theorem answerPlan_queryError {p : Plan} (h : e.answerPlan ctx request p = .ok answer) :
    answer.queryError = p.search.bind CompiledSearch.error := by
  unfold answerPlan at h
  simp only at h
  split at h
  · obtain ⟨outcome, -, h⟩ := exists_of_bind h
    split at h
    · cases h
      rfl
    · exact (fetch_ok h).1
  · exact (fetch_ok h).1

/-- A search that was tried is refused, or it is what it was; any other with its filter goes the same
way. -/
theorem triedSearch_ok {c tried : CompiledSearch} (h : e.triedSearch ctx c = .ok tried) :
    tried = c.refused ∨
      tried = c ∧ ∀ c', c'.predicate = c.predicate → e.triedSearch ctx c' = .ok c' := by
  unfold triedSearch at h ⊢
  by_cases hterms : c.predicate.fullTextTerms.isEmpty = true
  · rw [if_pos hterms] at h
    refine .inr ⟨(Except.ok.inj h).symm, fun c' hc' => ?_⟩
    rw [hc', if_pos hterms]
  · rw [if_neg hterms] at h
    obtain ⟨runs, hruns, rfl⟩ := exists_of_map h
    cases runs with
    | false => exact .inl rfl
    | true =>
      refine .inr ⟨rfl, fun c' hc' => ?_⟩
      rw [hc', if_neg hterms, hruns]
      rfl

/-- Where the error in the search of a plan comes from: the store has refused the search, or a plugin
tells of it, and the search without it is the plan's as well. -/
theorem searchFor_error (hclear : ctx.token.tripped = false) {c : CompiledSearch} {message : String}
    (hsearch : e.searchFor ctx request = .ok (some c)) (herror : c.error = some message) :
    (∃ meaning : CompiledSearch, c = meaning.refused) ∨
      ∃ text, searchText? request = some text ∧ e.plugins.searchFor? text ctx = some c ∧
        e.silent.searchFor ctx request = .ok (some c.silent) := by
  unfold searchFor at hsearch
  cases htext : searchText? request with
  | none => simp [htext] at hsearch
  | some text =>
    rw [htext] at hsearch
    simp only [compileSearch_eq hclear] at hsearch
    obtain ⟨tried, hbind, hc⟩ := exists_of_map hsearch
    obtain rfl := Option.some.inj hc
    obtain ⟨meaning, hmeaning, htried⟩ := exists_of_bind hbind
    rcases triedSearch_ok htried with rfl | ⟨rfl, hsame⟩
    · exact .inl ⟨meaning, rfl⟩
    · unfold meaningOf at hmeaning
      cases hplugin : e.plugins.searchFor? text ctx with
      | none =>
        rw [hplugin] at hmeaning
        rw [Search.compile_error hmeaning] at herror
        cases herror
      | some c =>
        rw [hplugin] at hmeaning
        obtain rfl := Except.ok.inj hmeaning
        refine .inr ⟨text, rfl, hplugin, ?_⟩
        have hmeaning' : e.silent.meaningOf ctx text request.searchLanguage = .ok c.silent := by
          have hsilent := e.plugins.silent_searchFor text ctx
          rw [hplugin] at hsilent
          simp only [meaningOf, Engine.silent, hsilent, Option.map_some]
        have htried' : e.silent.triedSearch ctx c.silent = .ok c.silent := hsame c.silent rfl
        simp only [searchFor, htext, compileSearch_eq hclear, hmeaning', Except.bind, htried']
        rfl

/-- An answer that tells of an error in its search has no rows, unless a plugin tells of it: one that
gives the answer, or one that gives the search a meaning and the error beside it. Then the rows are
those of the search without the error. -/
theorem query_error_rows (e : Engine) (ctx : Context) (request : Request)
    (hreach : e.store.Reachable) {answer : Answer} {message : String}
    (hok : e.headlines ctx request = .ok answer) (herror : answer.queryError = some message) :
    answer.rows = [] ∨
      (∃ id, Reference.ofAddress? request.feed request.isCategory = some (.plugin id) ∧
        e.plugins.feedHeadlines id request ctx = .ok (some answer)) ∨
      ∃ text c, searchText? request = some text ∧ e.plugins.searchFor? text ctx = some c ∧
        c.error = some message ∧ e.silent.headlines ctx request = .ok answer.silent := by
  rcases headlines_cases hok with hplugin | ⟨s, hs, hplugin⟩
  · exact .inr (.inl hplugin)
  have h := hreach.sound
  obtain ⟨hclear, p, hplan, hanswer⟩ := plan_of_headlines hs hplugin hok
  obtain ⟨heading, search, hheading, hsearch, rfl⟩ := (plan_ok_iff h hclear hs hplugin).mp hplan
  rw [answerPlan_queryError hanswer] at herror
  obtain ⟨c, rfl, hmessage⟩ := Option.bind_eq_some_iff.mp herror
  rcases searchFor_error hclear hsearch hmessage with
    ⟨meaning, rfl⟩ | ⟨text, htext, htold, hsilent⟩
  · obtain ⟨refused, hrefused, -, hrows⟩ := e.answerPlan_refused ctx request s heading meaning
    obtain rfl := Except.ok.inj (hrefused.symm.trans hanswer)
    exact .inl hrows
  · refine .inr (.inr ⟨text, c, htext, htold, hmessage, ?_⟩)
    have hplan' : e.silent.plan ctx request s =
        .ok (e.silent.planFor ctx request s heading (some c.silent)) :=
      (plan_ok_iff (e := e.silent) h hclear hs hplugin).mpr ⟨heading, _, hheading, hsilent, rfl⟩
    have hanswer' := e.silent.answerPlan_search ctx request s heading c.silent
    rw [answerPlan_search] at hanswer
    simp only [headlines, hclear, hs, hplugin, hplan', Except.bind, hanswer']
    exact (fetch_ok hanswer).2

/-- One article, and a plugin that tells of an error in every search and lets every row through. -/
def doubtfulEngine : Engine where
  store := Store.ofHistory [archivedArticle]
  plugins := { Plugins.none with
    searches := [fun _ _ => some ⟨.always, ["x"], some "Incorrect search syntax: x."⟩] }
  limits := .standard

def searchRequest : Request := { Request.plain (.id (-4)) with search := some "x" }

theorem doubtful_answer : ∃ answer,
    doubtfulEngine.headlines archivedContext searchRequest = .ok answer ∧
      answer.queryError = some "Incorrect search syntax: x." ∧ answer.rows.length = 1 := by
  have hanswer : (doubtfulEngine.headlines archivedContext searchRequest).map
      (fun answer => (answer.queryError, answer.rows.length)) =
        .ok (some "Incorrect search syntax: x.", 1) := by decide +kernel
  obtain ⟨answer, hok, hparts⟩ := exists_of_map hanswer
  exact ⟨answer, hok, (Prod.mk.inj hparts).1, (Prod.mk.inj hparts).2⟩

/-- The article is a row beside the error, as it is without it. -/
theorem query_error_rows_doubtful : doubtfulEngine.store.Reachable ∧ ∃ answer,
    doubtfulEngine.headlines archivedContext searchRequest = .ok answer ∧
      answer.queryError = some "Incorrect search syntax: x." ∧ answer.rows.length = 1 ∧
      doubtfulEngine.silent.headlines archivedContext searchRequest = .ok answer.silent := by
  have hreach : doubtfulEngine.store.Reachable := ⟨[archivedArticle], rfl⟩
  obtain ⟨answer, hok, herror, hrows⟩ := doubtful_answer
  refine ⟨hreach, answer, hok, herror, hrows, ?_⟩
  rcases query_error_rows doubtfulEngine archivedContext searchRequest hreach hok herror with
    hnone | ⟨id, hplugin, -⟩ | ⟨text, c, -, -, -, hsilent⟩
  · rw [hnone] at hrows
    cases hrows
  · have hall : Reference.ofAddress? searchRequest.feed searchRequest.isCategory =
        some (.special .all) := rfl
    rw [hall] at hplugin
    cases hplugin
  · exact hsilent

/-- So an error in the search may stand beside rows. -/
theorem query_error_beside_rows :
    ¬∀ (e : Engine) (ctx : Context) (request : Request) (answer : Answer), e.store.Reachable →
      e.headlines ctx request = .ok answer → answer.queryError.isSome → answer.rows = [] := by
  intro h
  obtain ⟨answer, hok, herror, hrows⟩ := doubtful_answer
  have hnone := h doubtfulEngine archivedContext searchRequest answer ⟨[archivedArticle], rfl⟩ hok
    (by rw [herror]; rfl)
  rw [hnone] at hrows
  cases hrows

end Engine

end Newsfeed
