import Newsfeed.Proofs.Listing.Serving
import Newsfeed.Proofs.Search.Meaning
import Newsfeed.Proofs.Sql.Fallback

/-!
What comes of a request: it is turned down for its reference, or answered, with a word about a
search that is refused. What stands in between are the limits of the store and, of all faults, a
refusal that it cannot put into words.
-/

namespace Newsfeed

open Predicate

namespace Store

/-- The owner has what a reference names. -/
def Owns (s : Store) (owner : Int) : Reference → Prop
  | .feed id => ∃ f ∈ s.feeds, f.id = id ∧ f.owner = owner
  | .category id => ∃ c ∈ s.categories, c.id = id ∧ c.owner = owner
  | .label id => ∃ l ∈ s.labels, l.id = id ∧ l.owner = owner
  | _ => True

end Store

namespace Engine

variable {e : Engine} {ctx : Context} {request : Request} {s : Selection}

/-- The reference stands for something that the owner has and no plugin serves. -/
def Resolves (e : Engine) (ctx : Context) (request : Request) : Prop :=
  ∃ kind, Reference.ofAddress? request.feed request.isCategory = some kind ∧
    (∀ id, kind ≠ .plugin id) ∧ e.store.Owns ctx.owner kind

theorem owned_cases {α : Type} (what : String) (id : Int) (heading : α → Heading) {rows : List α}
    {p : α → Bool} {P : Prop} (h : P ↔ ∃ a ∈ rows, p a) :
    (P ∧ ∃ shown, (owned what id (.ok (rows.find? p))).map heading = .ok shown) ∨
      (¬P ∧ ∃ text, (owned what id (.ok (rows.find? p))).map heading =
        .error (.unresolved text)) := by
  rw [h, ← List.find?_isSome]
  cases rows.find? p with
  | some a => exact .inl ⟨rfl, heading a, rfl⟩
  | none => exact .inr ⟨by simp, _, rfl⟩

theorem describe_cases (hclear : ctx.token.tripped = false) (isCategory : Bool) :
    (e.store.Owns ctx.owner s.kind ∧ ∃ heading, e.describe ctx s isCategory = .ok heading) ∨
      (¬e.store.Owns ctx.owner s.kind ∧
        ∃ what, e.describe ctx s isCategory = .error (.unresolved what)) := by
  unfold describe
  simp only [reads, Store.under, GuardedStore.feed?, GuardedStore.category?, GuardedStore.label?,
    CancelToken.guarded, hclear]
  cases s.kind with
  | feed id => exact owned_cases "feed" id Feed.heading (by simp [Store.Owns])
  | category id =>
    exact owned_cases "category" id (fun c : Category => .titled c.title)
      (by simp [Store.Owns])
  | label id =>
    exact owned_cases "label" id (fun l : Label => .titled l.caption) (by simp [Store.Owns])
  | _ => exact .inl ⟨trivial, _, rfl⟩

theorem headlines_of_unresolved (h : Store.Sound e.store) (hplugins : e.plugins = .none)
    (hclear : ctx.token.tripped = false) (hresolves : ¬e.Resolves ctx request) :
    ∃ what, e.headlines ctx request = .error (.unresolved what) := by
  unfold headlines
  cases hs : Selection.ofAddress? request.feed request.isCategory request.includeChildren
      ctx.prefs with
  | none => exact ⟨request.feed.text, by simp [hclear]⟩
  | some s =>
    cases hplugin : s.pluginFeed? with
    | some id =>
      refine ⟨request.feed.text, ?_⟩
      simp [hclear, hplugin, hplugins, Plugins.none, Plugins.feedHeadlines, Plugins.firstAnswer,
        Except.bind]
    | none =>
      have howns : ¬e.store.Owns ctx.owner s.kind := fun howns =>
        hresolves ⟨s.kind, (Selection.kind_of_address hs).1, Selection.pluginFeed_eq_none.mp hplugin,
          howns⟩
      obtain ⟨-, what, hwhat⟩ :=
        (describe_cases hclear request.isCategory).resolve_left fun h => howns h.1
      refine ⟨what, ?_⟩
      simp [hclear, hplugin, plan_eq h hclear hs hplugin, hwhat, Except.bind]

/-- What a request's search means, before it is tried. -/
def searchMeaning (e : Engine) (ctx : Context) (request : Request) :
    Except Failure (Option CompiledSearch) :=
  match searchText? request with
  | some text => (e.meaningOf ctx text request.searchLanguage).map some
  | none => .ok none

/-- The full-text queries of a search, if there is one. -/
def queriesOf (search : Option CompiledSearch) : List (String × String) :=
  (search.map fun c => c.predicate.fullTextTerms).getD []

theorem labelLookup_eq (hclear : ctx.token.tripped = false) (caption : String) :
    e.labelLookup ctx caption = .ok (e.store.findLabel? ctx.owner caption) := by
  simp only [labelLookup, reads, Store.under, GuardedStore.findLabel?, CancelToken.guarded, hclear]
  rfl

theorem labelLookup_ok (hclear : ctx.token.tripped = false) (caption : String) :
    ∃ id?, e.labelLookup ctx caption = .ok id? := ⟨_, labelLookup_eq hclear caption⟩

theorem searchMeaning_ok (hplugins : e.plugins = .none) (hclear : ctx.token.tripped = false)
    (request : Request) :
    ∃ search, e.searchMeaning ctx request = .ok search ∧
      ∀ c, search = some c → c.IsWorded := by
  unfold searchMeaning
  cases searchText? request with
  | none => exact ⟨none, rfl, by simp⟩
  | some text =>
    obtain ⟨c, hc, hworded⟩ := Search.compile_worded ctx (labelLookup_ok (e := e) hclear) text
      request.searchLanguage
    have hmeaning : e.meaningOf ctx text request.searchLanguage = .ok c := by
      simp [meaningOf, hplugins, Plugins.none, Plugins.searchFor?, hc]
    exact ⟨some c, by simp [hmeaning, Except.map], fun c' hc' => Option.some.inj hc' ▸ hworded⟩

theorem searchFor_eq (hclear : ctx.token.tripped = false) :
    e.searchFor ctx request = (e.searchMeaning ctx request).bind fun search =>
      match search with
      | some c => (e.triedSearch ctx c).map some
      | none => .ok none := by
  unfold searchFor searchMeaning
  cases searchText? request with
  | none => rfl
  | some text =>
    simp only [compileSearch_eq hclear]
    cases e.meaningOf ctx text request.searchLanguage <;> rfl

/-- A reference that resolves leaves the answer to the search. -/
theorem headlines_of_resolved (h : Store.Sound e.store) (hclear : ctx.token.tripped = false)
    (hs : Selection.ofAddress? request.feed request.isCategory request.includeChildren ctx.prefs =
      some s) (hplugin : s.pluginFeed? = none) (howns : e.store.Owns ctx.owner s.kind) :
    ∃ heading, e.describe ctx s request.isCategory = .ok heading ∧
      e.headlines ctx request = (e.searchFor ctx request).bind fun search =>
        e.answerPlan ctx request (e.planFor ctx request s heading search) := by
  obtain ⟨-, heading, hheading⟩ :=
    (describe_cases hclear request.isCategory).resolve_right fun h => h.1 howns
  refine ⟨heading, hheading, ?_⟩
  simp only [headlines, hclear, hs, hplugin, plan_eq h hclear hs hplugin, hheading, Except.bind,
    Bool.false_eq_true, if_false]
  cases e.searchFor ctx request <;> rfl

theorem fetch_eq (hclear : ctx.token.tripped = false) {query : ListingQuery}
    (hnever : query.filter.isNever = false) (answer : Answer) :
    e.fetch ctx query answer =
      ((e.store.headlines query).mapError Failure.store).map fun rows => { answer with rows } := by
  rw [fetch, if_neg (by simp [hnever]), hclear, if_neg Bool.false_ne_true, reads, Store.under,
    GuardedStore.headlines, CancelToken.guarded, hclear, if_neg Bool.false_ne_true]

/-- Rows are read unless the filter is beyond the limits of the store. -/
theorem fetch_cases (hclear : ctx.token.tripped = false) (query : ListingQuery) (answer : Answer)
    (hrun : Each Runnable query.filter) :
    (∃ rows, e.fetch ctx query answer = .ok { answer with rows }) ∨
      ∃ f, f.isLimit ∧ e.fetch ctx query answer = .error (.store f) ∧
        ¬(Scan.Condition.ofPredicate query.filter).Within := by
  unfold fetch
  by_cases hnever : query.filter.isNever = true
  · exact .inl ⟨answer.rows, by simp [hnever]⟩
  · simp only [if_neg hnever, hclear, reads, Store.under, GuardedStore.headlines,
      CancelToken.guarded, Store.headlines]
    cases hf : e.store.fault? query.owner query.allowArchived query.filter query.purpose with
    | none => exact .inl ⟨_, rfl⟩
    | some f =>
      refine .inr ⟨f, Store.fault_isLimit hrun hf, rfl, fun hw => ?_⟩
      rw [e.store.fault_of_within _ _ hw] at hf
      cases hf

variable (e ctx)

theorem planFor_runnable (request : Request) (s : Selection) (heading : Heading)
    {search : Option CompiledSearch} (h : ∀ c, search = some c → Each Runnable c.predicate) :
    Each Runnable (e.planFor ctx request s heading search).query.filter := by
  change Each Runnable (Predicate.all ((search.map CompiledSearch.predicate).getD .always ::
    e.otherFilters ctx request s search.isSome))
  refine each_all trivial trivial fun p hp => ?_
  rcases List.mem_cons.mp hp with rfl | hp
  · cases search with
    | none => exact each_runnable_of_plain (each_of_plain trivial)
    | some c => exact h c rfl
  · exact each_runnable_of_plain ((e.otherFilters_plain ctx request s _).1 p hp)

theorem recent_within (request : Request) (s : Selection) (heading : Heading)
    (since : Time.Instant) :
    (Scan.Condition.ofPredicate
      ((e.planFor ctx request s heading none).query.recentFilter since)).Within := by
  have hparts := e.otherFilters_plain ctx request s false
  have hsize := size_all_le (.always :: e.otherFilters ctx request s false)
  change (Scan.Condition.ofPredicate (Predicate.all [.compare .dateEntered .ge (.time since),
    Predicate.all (.always :: e.otherFilters ctx request s false)])).Within
  refine within_of_plain (each_plain_all fun p hp => ?_) ?_
  · simp only [List.mem_cons, List.not_mem_nil, or_false] at hp
    rcases hp with rfl | rfl
    · exact each_of_plain trivial
    · refine each_plain_all fun p hp => ?_
      rcases List.mem_cons.mp hp with rfl | hp
      · exact each_of_plain trivial
      · exact hparts.1 p hp
  · have hall := size_all_le [.compare .dateEntered .ge (.time since),
      Predicate.all (.always :: e.otherFilters ctx request s false)]
    simp only [sizes, size] at hall hsize
    omega

theorem answerPlan_bare (hclear : ctx.token.tripped = false) (request : Request) (s : Selection)
    (heading : Heading) :
    ∃ answer, e.answerPlan ctx request (e.planFor ctx request s heading none) = .ok answer ∧
      answer.queryError = none := by
  have hrun : Each Runnable (e.planFor ctx request s heading none).query.filter :=
    e.planFor_runnable ctx request s heading (by simp)
  have hw := e.planFor_within ctx request s heading
  have hfetch (answer : Answer) (h : answer.queryError = none) :
      ∃ served, e.fetch ctx (e.planFor ctx request s heading none).query answer = .ok served ∧
        served.queryError = none := by
    rcases fetch_cases hclear _ answer hrun with ⟨rows, hrows⟩ | ⟨f, -, -, hnot⟩
    · exact ⟨_, hrows, h⟩
    · exact absurd hw hnot
  have hguard (minutes : Int) : ∃ outcome,
      e.guard ctx (e.planFor ctx request s heading none).query request.page minutes =
        .ok outcome := by
    simp only [guard, reads, Store.under, GuardedStore.firstId?, CancelToken.guarded, hclear,
      Store.firstId?, e.store.find_of_within _ _ (e.recent_within ctx request s heading _)]
    exact ⟨_, rfl⟩
  unfold answerPlan
  simp only
  split
  · obtain ⟨outcome, houtcome⟩ := hguard e.limits.guardMinutes
    simp only [houtcome, bind, Except.bind]
    split
    · exact ⟨_, rfl, rfl⟩
    · exact hfetch _ rfl
  · exact hfetch _ rfl

theorem answerPlan_search (request : Request) (s : Selection) (heading : Heading)
    (c : CompiledSearch) :
    e.answerPlan ctx request (e.planFor ctx request s heading (some c)) =
      e.fetch ctx (e.planFor ctx request s heading (some c)).query
        (outline (e.planFor ctx request s heading (some c))) := by
  have hguarded : (e.planFor ctx request s heading (some c)).isGuarded request = false := by
    simp [Plan.isGuarded, planFor]
  simp [answerPlan, hguarded]

/-- A search that is refused finds nothing and says so. -/
theorem answerPlan_refused (request : Request) (s : Selection) (heading : Heading)
    (c : CompiledSearch) :
    ∃ answer, e.answerPlan ctx request (e.planFor ctx request s heading (some c.refused)) =
        .ok answer ∧ answer.queryError.isSome ∧ answer.rows = [] := by
  rw [answerPlan_search]
  exact ⟨_, rfl, rfl, rfl⟩

/-- What the page of a request reads. -/
def queryFor (e : Engine) (ctx : Context) (request : Request) (s : Selection)
    (search : Option CompiledSearch) : ListingQuery :=
  e.queryOf ctx request s search (e.viewOf ctx request s search.isSome) (e.ownFilter ctx s)

/-- Every statement with a filter that a request can run: the trial of its search, the count of its
unread rows, the look at the first row, and the page. -/
def statements (e : Engine) (ctx : Context) (request : Request) (s : Selection)
    (search : Option CompiledSearch) : List Sql.Statement :=
  search.toList.map (fun c => Sql.trial ctx.owner c.predicate) ++
    [Sql.count ctx.owner s.kind.countsArchived (Predicate.all [e.ownFilter ctx s, isUnread]),
     Sql.firstId (e.queryFor ctx request s search)
       (Time.minutesBefore ctx.now e.limits.guardMinutes),
     Sql.page (e.queryFor ctx request s search)]

theorem statements_direct (request : Request) (s : Selection) {search : Option CompiledSearch}
    (h : ∀ c, search = some c → Each Runnable c.predicate) :
    ∀ statement ∈ e.statements ctx request s search, statement.Direct := by
  intro statement hstatement
  have hfilter := e.planFor_runnable ctx request s (.titled "") h
  simp only [statements, List.mem_append, List.mem_map, Option.mem_toList, List.mem_cons,
    List.not_mem_nil, or_false] at hstatement
  rcases hstatement with ⟨c, hc, rfl⟩ | rfl | rfl | rfl
  · exact Sql.trial_direct _ (accepted_of_runnable (h c hc))
  · refine Sql.count_direct _ _ (accepted_of_runnable (each_runnable_of_plain ?_))
    refine each_plain_all fun p hp => ?_
    simp only [List.mem_cons, List.not_mem_nil, or_false] at hp
    rcases hp with rfl | rfl
    · exact (selection_plain s ctx e.limits _).1
    · exact isUnread_plain
  · refine Sql.firstId_direct (accepted_of_runnable (each_all trivial trivial fun p hp => ?_))
    simp only [List.mem_cons, List.not_mem_nil, or_false] at hp
    rcases hp with rfl | rfl
    · exact each_runnable_of_plain (each_of_plain trivial)
    · exact hfilter
  · exact Sql.page_direct (accepted_of_runnable hfilter)

theorem triedSearch_runnable {c : CompiledSearch} (h : Each Runnable c.predicate) :
    e.triedSearch ctx c = .ok c ∨
      ∃ f, f.isLimit ∧ e.triedSearch ctx c = .error (.store f) ∧
        ¬(Scan.Condition.ofPredicate c.predicate).Within := by
  unfold triedSearch
  by_cases hterms : c.predicate.fullTextTerms.isEmpty = true
  · exact .inl (if_pos hterms)
  · rw [if_neg hterms, Store.probe_of_accepted (accepted_of_runnable h)]
    cases hf : e.store.fault? ctx.owner true c.predicate .trial with
    | none => exact .inl rfl
    | some f =>
      refine .inr ⟨f, Store.fault_isLimit h hf, rfl, fun hw => ?_⟩
      rw [e.store.fault_of_within _ _ hw] at hf
      cases hf

theorem triedSearch_refused {c : CompiledSearch} {term : String × String}
    (hone : ∀ other ∈ c.predicate.fullTextTerms, other = term)
    (hterm : term ∈ c.predicate.fullTextTerms) {refusal : FullText.QueryError}
    (hrefused : FullText.compile term.1 term.2 = .error refusal) :
    e.triedSearch ctx c =
      if refusal.message.toList.contains '\x00' then .error (.store .garbled)
      else .ok c.refused := by
  have hterms : ¬c.predicate.fullTextTerms.isEmpty = true := by
    intro hempty
    rw [List.isEmpty_iff.mp hempty] at hterm
    cases hterm
  have hnot : ¬Accepted c.predicate.fullTextTerms := by
    intro haccepted
    obtain ⟨tree, htree⟩ := haccepted term hterm
    rw [htree] at hrefused
    cases hrefused
  obtain ⟨other, hother, e', he', hprobe⟩ := e.store.probe_of_refused ctx.owner hnot
  obtain rfl := hone other hother
  rw [hrefused] at he'
  obtain rfl := Except.error.inj he'
  rw [triedSearch, if_neg hterms, hprobe]
  split <;> rfl

/-- What is answered, when it is known what the search means. -/
def answerSearch (e : Engine) (ctx : Context) (request : Request) (s : Selection)
    (heading : Heading) (search : Option CompiledSearch) : Except Failure Answer :=
  (match search with
    | some c => (e.triedSearch ctx c).map some
    | none => .ok none).bind fun search =>
      e.answerPlan ctx request (e.planFor ctx request s heading search)

theorem answerSearch_refused (request : Request) {c : CompiledSearch} (hc : c.IsWorded)
    (s : Selection) (heading : Heading) {term : String × String}
    (hterm : term ∈ c.predicate.fullTextTerms) {refusal : FullText.QueryError}
    (hrefused : FullText.compile term.1 term.2 = .error refusal) :
    if refusal.message.toList.contains '\x00' then
      e.answerSearch ctx request s heading (some c) = .error (.store .garbled)
    else ∃ answer, e.answerSearch ctx request s heading (some c) = .ok answer ∧
      answer.queryError.isSome ∧ answer.rows = [] := by
  have htried := e.triedSearch_refused ctx (fun _ hother => hc.one_query hterm hother) hterm
    hrefused
  split
  · rename_i hnul
    rw [if_pos hnul] at htried
    simp only [answerSearch, htried]
    rfl
  · rename_i hnul
    rw [if_neg hnul] at htried
    simp only [answerSearch, htried]
    exact e.answerPlan_refused ctx request s heading c

theorem answerSearch_accepted (request : Request) (hclear : ctx.token.tripped = false)
    (s : Selection) (heading : Heading) {search : Option CompiledSearch}
    (hsearch : ∀ c, search = some c → c.IsWorded) (haccepted : Accepted (queriesOf search)) :
    (∃ answer, e.answerSearch ctx request s heading search = .ok answer ∧
        answer.queryError = none) ∨
      ∃ c f, search = some c ∧ f.isLimit ∧
        e.answerSearch ctx request s heading search = .error (.store f) ∧
        ¬((Scan.Condition.ofPredicate c.predicate).Within ∧
          (Scan.Condition.ofPredicate (e.queryFor ctx request s search).filter).Within) := by
  cases search with
  | none => exact .inl (e.answerPlan_bare ctx hclear request s heading)
  | some c =>
    have hrun : Each Runnable c.predicate := (hsearch c rfl).runnable haccepted
    rcases e.triedSearch_runnable ctx hrun with htried | ⟨f, hf, htried, hnot⟩
    · simp only [answerSearch, htried]
      change (∃ answer, e.answerPlan ctx request (e.planFor ctx request s heading (some c)) =
        .ok answer ∧ _) ∨ _
      rw [answerPlan_search]
      rcases fetch_cases hclear _ (outline (e.planFor ctx request s heading (some c)))
        (e.planFor_runnable ctx request s heading fun c' hc' => Option.some.inj hc' ▸ hrun) with
        ⟨rows, hrows⟩ | ⟨f, hf, hfault, hnot⟩
      · exact .inl ⟨_, hrows, (hsearch c rfl).error⟩
      · exact .inr ⟨c, f, rfl, hf, (e.answerPlan_search ctx request s heading c).trans hfault,
          fun h => hnot h.2⟩
    · refine .inr ⟨c, f, rfl, hf, ?_, fun h => hnot h.1⟩
      simp only [answerSearch, htried]
      rfl

theorem answerSearch_ne_unresolved (request : Request) (hclear : ctx.token.tripped = false)
    (s : Selection) (heading : Heading) {search : Option CompiledSearch}
    (hsearch : ∀ c, search = some c → c.IsWorded) (what : String) :
    e.answerSearch ctx request s heading search ≠ .error (.unresolved what) := by
  intro hwhat
  by_cases haccepted : Accepted (queriesOf search)
  · rcases e.answerSearch_accepted ctx request hclear s heading hsearch haccepted with
      ⟨answer, hok, -⟩ | ⟨c, f, -, -, hfault, -⟩
    · rw [hok] at hwhat
      cases hwhat
    · rw [hfault] at hwhat
      cases hwhat
  · obtain ⟨term, hterm, refusal, hrefused⟩ := exists_refused haccepted
    cases search with
    | none => cases hterm
    | some c =>
      have hanswer := e.answerSearch_refused ctx request (hsearch c rfl) s heading hterm hrefused
      split at hanswer
      · rw [hanswer] at hwhat
        cases hwhat
      · obtain ⟨answer, hok, -⟩ := hanswer
        rw [hok] at hwhat
        cases hwhat

variable {e ctx}

theorem Resolves.selected (hresolves : e.Resolves ctx request)
    (hs : Selection.ofAddress? request.feed request.isCategory request.includeChildren ctx.prefs =
      some s) : s.pluginFeed? = none ∧ e.store.Owns ctx.owner s.kind := by
  obtain ⟨kind, hkind, hplugin, howns⟩ := hresolves
  obtain rfl : kind = s.kind :=
    Option.some.inj (hkind.symm.trans (Selection.kind_of_address hs).1)
  exact ⟨Selection.pluginFeed_eq_none.mpr hplugin, howns⟩

theorem headlines_of_meaning (h : Store.Sound e.store) (hplugins : e.plugins = .none)
    (hclear : ctx.token.tripped = false)
    (hs : Selection.ofAddress? request.feed request.isCategory request.includeChildren ctx.prefs =
      some s) (hresolves : e.Resolves ctx request) :
    ∃ search heading, e.searchMeaning ctx request = .ok search ∧
      (∀ c, search = some c → c.IsWorded) ∧
      e.headlines ctx request = e.answerSearch ctx request s heading search := by
  obtain ⟨hnone, howns⟩ := hresolves.selected hs
  obtain ⟨heading, -, hheadlines⟩ := headlines_of_resolved h hclear hs hnone howns
  obtain ⟨search, hsearch, hworded⟩ := searchMeaning_ok hplugins hclear request
  refine ⟨search, heading, hsearch, hworded, ?_⟩
  rw [hheadlines, searchFor_eq hclear, hsearch]
  rfl

/-- What comes of a request without plugins. It is turned down for its reference exactly where that
does not resolve. Otherwise a search whose query is refused is answered with that and no rows, and
any other request with what it asks for; then none of the statements that it can run falls back on
the function that refuses queries. A fault of the store comes in between only where a search is
beyond its limits, and where a query is refused in words that hold a NUL. -/
theorem headlines_outcome (e : Engine) (ctx : Context) (request : Request)
    (hreach : e.store.Reachable) (hplugins : e.plugins = .none)
    (hclear : ctx.token.tripped = false) :
    ((∃ what, e.headlines ctx request = .error (.unresolved what)) ↔
      ¬e.Resolves ctx request) ∧
    ∀ s, Selection.ofAddress? request.feed request.isCategory request.includeChildren ctx.prefs =
        some s → e.Resolves ctx request →
      ∃ search, e.searchMeaning ctx request = .ok search ∧
        (∀ term ∈ queriesOf search, ∀ refusal,
          FullText.compile term.1 term.2 = .error refusal →
          if refusal.message.toList.contains '\x00' then
            e.headlines ctx request = .error (.store .garbled)
          else ∃ answer, e.headlines ctx request = .ok answer ∧ answer.queryError.isSome ∧
            answer.rows = []) ∧
        (Accepted (queriesOf search) →
          (∀ statement ∈ e.statements ctx request s search, statement.Direct) ∧
          ((∃ answer, e.headlines ctx request = .ok answer ∧ answer.queryError = none) ∨
            ∃ c f, search = some c ∧ f.isLimit ∧ e.headlines ctx request = .error (.store f) ∧
              ¬((Scan.Condition.ofPredicate c.predicate).Within ∧
                (Scan.Condition.ofPredicate (e.queryFor ctx request s search).filter).Within))) := by
  have h := hreach.sound
  refine ⟨⟨?_, headlines_of_unresolved h hplugins hclear⟩, fun s hs hresolves => ?_⟩
  · rintro ⟨what, hwhat⟩ hresolves
    obtain ⟨s, hs⟩ : ∃ s, Selection.ofAddress? request.feed request.isCategory
        request.includeChildren ctx.prefs = some s := by
      obtain ⟨kind, hkind, -⟩ := hresolves
      exact ⟨_, congrArg (Option.map _) hkind⟩
    obtain ⟨search, heading, -, hworded, hanswer⟩ :=
      headlines_of_meaning h hplugins hclear hs hresolves
    exact e.answerSearch_ne_unresolved ctx request hclear s heading hworded what
      (hanswer.symm.trans hwhat)
  · obtain ⟨search, heading, hsearch, hworded, hanswer⟩ :=
      headlines_of_meaning h hplugins hclear hs hresolves
    rw [hanswer]
    refine ⟨search, hsearch, fun term hterm refusal hrefused => ?_, fun haccepted => ⟨?_, ?_⟩⟩
    · cases search with
      | none => cases hterm
      | some c => exact e.answerSearch_refused ctx request (hworded c rfl) s heading hterm hrefused
    · refine e.statements_direct ctx request s fun c hc => ?_
      subst hc
      exact (hworded c rfl).runnable haccepted
    · exact e.answerSearch_accepted ctx request hclear s heading hworded haccepted

def emptyEngine : Engine := ⟨Store.ofHistory [], .none, .standard⟩

def readerContext : Context := ⟨1, .standard, ⟨1715342400, 0⟩, .clear⟩

/-- A search of all articles in a language. -/
def searching (text language : String) : Request :=
  { Request.plain (.id (-4)) with search := some text, searchLanguage := some language }

theorem searching_resolves (text language : String) :
    emptyEngine.Resolves readerContext (searching text language) :=
  ⟨.special .all, rfl, by simp, trivial⟩

/-- A language that is not known is answered with an error beside no rows. -/
theorem headlines_outcome_unknown_language :
    emptyEngine.Resolves readerContext (searching "a" "klingon") ∧
    ∃ answer, emptyEngine.headlines readerContext (searching "a" "klingon") = .ok answer ∧
      answer.queryError.isSome ∧ answer.rows = [] := by
  have hresolves := searching_resolves "a" "klingon"
  obtain ⟨search, hsearch, hrefused, -⟩ := (headlines_outcome emptyEngine readerContext
    (searching "a" "klingon") ⟨[], rfl⟩ rfl rfl).2
    (.ofReference (.special .all) false false .standard) rfl hresolves
  have hqueries : (emptyEngine.searchMeaning readerContext (searching "a" "klingon")).map
      queriesOf = .ok [("klingon", "a")] := by decide +kernel
  rw [hsearch] at hqueries
  have hterm : ("klingon", "a") ∈ queriesOf search := by
    rw [Except.ok.inj hqueries]
    exact List.mem_singleton_self _
  have hlanguage : FullText.isLanguage "klingon" = false := by decide +kernel
  have hanswer := hrefused _ hterm (.unknownLanguage "klingon") (by
    simp [FullText.compile, hlanguage])
  rw [if_neg (by decide)] at hanswer
  exact ⟨hresolves, hanswer⟩

/-- So not every request with a reference that resolves is answered, limits or not: the language may
be one that the refusal cannot name. -/
theorem headlines_not_always_answered :
    ¬∀ (e : Engine) (ctx : Context) (request : Request), e.store.Reachable → e.plugins = .none →
      ctx.token.tripped = false → e.Resolves ctx request →
      (∃ answer, e.headlines ctx request = .ok answer) ∨
        ∃ f : Fault, f.isLimit ∧ e.headlines ctx request = .error (.store f) := by
  intro h
  have hfault : emptyEngine.headlines readerContext (searching "a" "\x00") =
      .error (.store .garbled) := by decide +kernel
  rcases h emptyEngine readerContext (searching "a" "\x00") ⟨[], rfl⟩ rfl rfl
    (searching_resolves "a" "\x00") with ⟨answer, hanswer⟩ | ⟨f, hf, hanswer⟩
  · rw [hfault] at hanswer
    cases hanswer
  · rw [hfault] at hanswer
    cases hanswer
    cases hf

end Engine

end Newsfeed
