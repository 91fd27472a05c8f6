import Newsfeed.Proofs.Listing.Serving
import Newsfeed.Proofs.Search.Trial
import Newsfeed.Proofs.Store.Permuted

/-!
The pages of a request are parts of one list, strictly in order, which depends on the rows that the
store holds and not on where they stand in its tables.
-/

namespace Newsfeed

open Store

theorem flatMap_slice {α : Type} (size n : Nat) (rows : List α) :
    (List.range n).flatMap (fun i => slice size (i * size) rows) = rows.take (n * size) := by
  induction n with
  | zero => simp
  | succ n ih =>
    rw [List.range_succ, List.flatMap_append, ih, Nat.succ_mul, List.take_add]
    simp [slice]

namespace Engine

/-- The engine on another store. -/
def onStore (e : Engine) (t : Store) : Engine := { e with store := t }

variable {e : Engine} {ctx : Context} {request : Request} {s : Selection} {p : Plan} {t : Store}

theorem describe_onStore (hsame : SameRows e.store t) (h : Sound e.store) (isCategory : Bool) :
    (e.onStore t).describe ctx s isCategory = e.describe ctx s isCategory := by
  unfold describe
  simp only [reads, onStore, under, GuardedStore.feed?, GuardedStore.category?, GuardedStore.label?,
    feed_same hsame h, category_same hsame h, label_same hsame h]

theorem labelLookup_onStore (hsame : SameRows e.store t) (h : Sound e.store) :
    (e.onStore t).labelLookup ctx = e.labelLookup ctx := by
  funext caption
  simp only [labelLookup, reads, onStore, under, GuardedStore.findLabel?, findLabel_same hsame h]

theorem forestOf_onStore (hsame : SameRows e.store t) (h : Sound e.store) :
    (e.onStore t).forestOf ctx s = e.forestOf ctx s := by
  simp only [forestOf, onStore, categories_same hsame h]

theorem viewOf_onStore (hsame : SameRows e.store t) (h : Sound e.store) (searching : Bool) :
    (e.onStore t).viewOf ctx request s searching = e.viewOf ctx request s searching := by
  have hunread : (e.onStore t).unreadRows ctx s.kind ((e.onStore t).ownFilter ctx s) = [] ↔
      e.unreadRows ctx s.kind (e.ownFilter ctx s) = [] := by
    simp only [unreadRows, ownFilter, forestOf_onStore hsame h, ← List.length_eq_zero_iff]
    rw [(matching_same hsame h _ _ _).length_eq]
    rfl
  simp only [viewOf, ne_eq, hunread]

theorem planFor_onStore (hsame : SameRows e.store t) (h : Sound e.store) (heading : Heading)
    (search : Option CompiledSearch) :
    (e.onStore t).planFor ctx request s heading search = e.planFor ctx request s heading search := by
  simp only [planFor, viewOf_onStore hsame h, ownFilter, forestOf_onStore hsame h]
  rfl

theorem meaningOf_onStore (hsame : SameRows e.store t) (h : Sound e.store) (text : String)
    (language : Option String) :
    (e.onStore t).meaningOf ctx text language = e.meaningOf ctx text language := by
  simp only [meaningOf, labelLookup_onStore hsame h]
  rfl

theorem triedSearch_onStore {c tried tried' : CompiledSearch}
    (htried : e.triedSearch ctx c = .ok tried)
    (htried' : (e.onStore t).triedSearch ctx c = .ok tried') : tried' = tried := by
  unfold triedSearch at htried htried'
  by_cases hterms : c.predicate.fullTextTerms.isEmpty = true
  · rw [if_pos hterms] at htried htried'
    exact (Except.ok.inj htried').symm.trans (Except.ok.inj htried)
  · rw [if_neg hterms] at htried htried'
    cases hruns : e.store.probe ctx.owner c.predicate with
    | error f => rw [hruns] at htried; cases htried
    | ok runs =>
      cases hruns' : (e.onStore t).store.probe ctx.owner c.predicate with
      | error f => rw [hruns'] at htried'; cases htried'
      | ok runs' =>
        have hsame : runs' = runs := by
          rw [Bool.eq_iff_iff, accepted_of_probe hruns, accepted_of_probe hruns']
        rw [hruns] at htried
        rw [hruns'] at htried'
        rw [← Except.ok.inj htried, ← Except.ok.inj htried', hsame]

theorem triedSearch_onStore_of_within {c tried : CompiledSearch}
    (htried : e.triedSearch ctx c = .ok tried)
    (hw : (Scan.Condition.ofPredicate tried.predicate).Within) :
    (e.onStore t).triedSearch ctx c = .ok tried := by
  unfold triedSearch at htried ⊢
  by_cases hterms : c.predicate.fullTextTerms.isEmpty = true
  · rw [if_pos hterms] at htried ⊢
    exact htried
  · rw [if_neg hterms] at htried ⊢
    by_cases haccepted : Accepted c.predicate.fullTextTerms
    · rw [probe_of_accepted haccepted] at htried ⊢
      have htried : tried = c := by
        split at htried
        · exact (Except.ok.inj htried).symm
        · cases htried
      rw [htried] at hw ⊢
      rw [(e.onStore t).store.fault_of_within _ _ hw]
      rfl
    · rw [probe_eq_of_refused (e.onStore t).store e.store ctx.owner haccepted]
      exact htried

theorem searchFor_onStore (hsame : SameRows e.store t) (h : Sound e.store)
    (hclear : ctx.token.tripped = false) {search search' : Option CompiledSearch}
    (hsearch : e.searchFor ctx request = .ok search)
    (hsearch' : (e.onStore t).searchFor ctx request = .ok search') : search' = search := by
  unfold searchFor at hsearch hsearch'
  cases htext : searchText? request with
  | none =>
    rw [htext] at hsearch hsearch'
    exact (Except.ok.inj hsearch').symm.trans (Except.ok.inj hsearch)
  | some text =>
    simp only [htext, compileSearch_eq hclear, meaningOf_onStore hsame h] at hsearch hsearch'
    cases hc : e.meaningOf ctx text request.searchLanguage with
    | error f => rw [hc] at hsearch; cases hsearch
    | ok c =>
      simp only [hc, Except.bind] at hsearch hsearch'
      cases htried : e.triedSearch ctx c with
      | error f => rw [htried] at hsearch; cases hsearch
      | ok tried =>
        cases htried' : (e.onStore t).triedSearch ctx c with
        | error f => rw [htried'] at hsearch'; cases hsearch'
        | ok tried' =>
          rw [htried] at hsearch
          rw [htried'] at hsearch'
          rw [← Except.ok.inj hsearch, ← Except.ok.inj hsearch', triedSearch_onStore htried htried']

theorem searchFor_onStore_of_within (hsame : SameRows e.store t) (h : Sound e.store)
    (hclear : ctx.token.tripped = false) {search : Option CompiledSearch}
    (hsearch : e.searchFor ctx request = .ok search)
    (hw : ∀ c, search = some c → (Scan.Condition.ofPredicate c.predicate).Within) :
    (e.onStore t).searchFor ctx request = .ok search := by
  unfold searchFor at hsearch ⊢
  cases htext : searchText? request with
  | none => rwa [htext] at hsearch
  | some text =>
    simp only [htext, compileSearch_eq hclear, meaningOf_onStore hsame h] at hsearch ⊢
    cases hc : e.meaningOf ctx text request.searchLanguage with
    | error f => rw [hc] at hsearch; cases hsearch
    | ok c =>
      simp only [hc, Except.bind] at hsearch ⊢
      cases htried : e.triedSearch ctx c with
      | error f => rw [htried] at hsearch; cases hsearch
      | ok tried =>
        rw [htried] at hsearch
        obtain rfl : some tried = search := Except.ok.inj hsearch
        rw [triedSearch_onStore_of_within htried (hw tried rfl)]
        rfl

end Engine

/-- Nothing that is read for the plan or its pages is beyond the limits of the store. -/
def Plan.Within (p : Plan) : Prop :=
  (Scan.Condition.ofPredicate p.query.filter).Within ∧
    ∀ c, p.search = some c → (Scan.Condition.ofPredicate c.predicate).Within

namespace Engine

variable {e : Engine} {ctx : Context} {request : Request} {s : Selection} {p : Plan} {t : Store}

theorem clear_of_plan (h : e.plan ctx request s = .ok p) : ctx.token.tripped = false := by
  by_contra hclear
  have hcheck : ctx.token.check = .error .cancelled := by simp_all [CancelToken.check]
  unfold plan at h
  cases hd : e.describe ctx s request.isCategory with
  | error f => rw [hd] at h; cases h
  | ok heading =>
    rw [hd] at h
    cases htext : searchText? request with
    | none =>
      simp only [htext, hcheck, bind, Except.bind] at h
      cases h
    | some text =>
      cases hc : e.compileSearch ctx text request.searchLanguage with
      | error f =>
        simp only [htext, hc, bind, Except.bind] at h
        cases h
      | ok c =>
        simp only [htext, hc, hcheck, bind, Except.bind, Except.map] at h
        cases h

theorem rows_onStore (hsame : SameRows e.store t) (h : Sound e.store) : p.rows t = p.rows e.store :=
  (SortOrder.sort_eq_of_perm _ (matching_distinct h _ _ _) (matching_same hsame h _ _ _)).symm

theorem plan_onStore (hsame : SameRows e.store t) (h : Sound e.store)
    (hs : Selection.ofAddress? request.feed request.isCategory request.includeChildren ctx.prefs =
      some s) (hplugin : s.pluginFeed? = none) (hplan : e.plan ctx request s = .ok p) {p' : Plan}
    (hplan' : (e.onStore t).plan ctx request s = .ok p') : p' = p := by
  have hclear := clear_of_plan hplan
  have ht : Sound (e.onStore t).store := hsame.sound h
  obtain ⟨heading, search, hheading, hsearch, rfl⟩ := (plan_ok_iff h hclear hs hplugin).mp hplan
  obtain ⟨heading', search', hheading', hsearch', rfl⟩ :=
    (plan_ok_iff ht hclear hs hplugin).mp hplan'
  rw [describe_onStore hsame h, hheading] at hheading'
  rw [planFor_onStore hsame h, searchFor_onStore hsame h hclear hsearch hsearch',
    Except.ok.inj hheading']

theorem plan_onStore_of_within (hsame : SameRows e.store t) (h : Sound e.store)
    (hs : Selection.ofAddress? request.feed request.isCategory request.includeChildren ctx.prefs =
      some s) (hplugin : s.pluginFeed? = none) (hplan : e.plan ctx request s = .ok p)
    (hw : p.Within) : (e.onStore t).plan ctx request s = .ok p := by
  have hclear := clear_of_plan hplan
  have ht : Sound (e.onStore t).store := hsame.sound h
  obtain ⟨heading, search, hheading, hsearch, rfl⟩ := (plan_ok_iff h hclear hs hplugin).mp hplan
  refine (plan_ok_iff ht hclear hs hplugin).mpr ⟨heading, search, ?_, ?_, ?_⟩
  · rw [describe_onStore hsame h, hheading]
  · exact searchFor_onStore_of_within hsame h hclear hsearch hw.2
  · exact (planFor_onStore hsame h heading search).symm

/-- The rows are those of a plan, and all pages of the request are parts of them. -/
structure Pages (e : Engine) (ctx : Context) (request : Request) (s : Selection) (p : Plan)
    (rows : List Joined) : Prop where
  selected : Selection.ofAddress? request.feed request.isCategory request.includeChildren
    ctx.prefs = some s
  planned : e.plan ctx request s = .ok p
  sorted : rows.Pairwise fun a b => (s.orderFor request.orderBy ctx.prefs
    (e.plugins.orderFor? request.orderBy)).compareRows a b = .lt
  nodup : rows.Nodup
  matching : ∀ r, r ∈ rows ↔ Matches e.store ctx.owner s.allowArchived p.query.filter r
  size : 0 < e.pageSize request
  /-- However the rows stand in their tables, a page is the same part of the list. -/
  part : ∀ t, SameRows e.store t → ∀ offset served,
    (e.onStore t).page ctx request offset = .ok served →
    served = slice (e.pageSize request) offset.toNat
      (rows.map fun r => r.headline request.includeContent)
  served : ∀ t, SameRows e.store t → p.Within → ∀ offset,
    (e.onStore t).page ctx request offset = .ok (slice (e.pageSize request) offset.toNat
      (rows.map fun r => r.headline request.includeContent))
  together : ∀ n pages,
    (∀ i < n, e.page ctx request ((i * e.pageSize request : Nat) : Int) = .ok (pages i)) →
    (List.range n).flatMap pages =
      (rows.map fun r => r.headline request.includeContent).take (n * e.pageSize request)
  within : searchText? request = none → p.Within

theorem Pages.perm {rows : List Joined} (h : Sound e.store)
    (hpages : e.Pages ctx request s p rows) :
    rows.Perm (e.store.matching ctx.owner s.allowArchived p.query.filter) := by
  have hnodup := (matching_copies h ctx.owner s.allowArchived p.query.filter).of_map
  refine (List.perm_ext_iff_of_nodup hpages.nodup hnodup).mpr fun r => ?_
  rw [hpages.matching, mem_matching h]

theorem pages_of_plan (h : Sound e.store)
    (hs : Selection.ofAddress? request.feed request.isCategory request.includeChildren ctx.prefs =
      some s) (hplugin : s.pluginFeed? = none) (hplan : e.plan ctx request s = .ok p) :
    e.Pages ctx request s p (p.rows e.store) := by
  have hclear := clear_of_plan hplan
  obtain ⟨heading, search, hheading, hsearch, hp⟩ := (plan_ok_iff h hclear hs hplugin).mp hplan
  have hdistinct := matching_distinct h p.query.owner p.query.allowArchived p.query.filter
  have hperm := p.query.order.sort_perm
    (e.store.matching p.query.owner p.query.allowArchived p.query.filter)
  have hpart (t : Store) (hsame : SameRows e.store t) (offset : Int) (served : List Headline)
      (hpage : (e.onStore t).page ctx request offset = .ok served) :
      served = slice (e.pageSize request) offset.toNat
        ((p.rows e.store).map fun r => r.headline request.includeContent) := by
    have ht : Sound (e.onStore t).store := hsame.sound h
    obtain ⟨-, p', hplan'⟩ := plan_of_page ht hs hplugin hpage
    obtain rfl := plan_onStore hsame h hs hplugin hplan hplan'
    rw [← rows_onStore hsame h]
    exact served_eq ht hclear hs hplugin hplan' hpage
  refine ⟨hs, hplan, ?sorted, ?nodup, ?matching, e.pageSize_pos request, hpart, ?served,
    ?together, ?within⟩
  case sorted =>
    have hstrict := p.query.order.sort_strict hdistinct
    rw [hp] at hstrict ⊢
    exact hstrict
  case nodup => exact hperm.nodup_iff.mpr (matching_copies h _ _ _).of_map
  case matching =>
    intro r
    rw [Plan.rows, hperm.mem_iff, mem_matching h, hp]
    rfl
  case served =>
    intro t hsame hw offset
    have ht : Sound (e.onStore t).store := hsame.sound h
    rw [← rows_onStore hsame h]
    exact page_of_within ht hclear hs hplugin (plan_onStore_of_within hsame h hs hplugin hplan hw)
      hw.1 offset
  case together =>
    intro n pages hpages
    rw [← flatMap_slice]
    apply List.flatMap_congr
    intro i hi
    exact hpart e.store (.refl _) _ _ (hpages i (List.mem_range.mp hi))
  case within =>
    intro htext
    obtain rfl : search = none := by simpa [searchFor, htext, eq_comm] using hsearch
    refine ⟨?_, ?_⟩
    · rw [hp]
      exact e.planFor_within ctx request s heading
    · intro c hc
      rw [hp] at hc
      cases hc

/-- A request without a plan has no pages. -/
theorem page_of_no_plan (h : Sound e.store) (hclear : ctx.token.tripped = false)
    (hs : Selection.ofAddress? request.feed request.isCategory request.includeChildren ctx.prefs =
      some s) (hplugin : s.pluginFeed? = none) {f : Failure}
    (hplan : e.plan ctx request s = .error f) (offset : Int) :
    e.page ctx request offset = .error f := by
  have hs' : Selection.ofAddress? (request.fromOffset offset).feed
      (request.fromOffset offset).isCategory (request.fromOffset offset).includeChildren
      ctx.prefs = some s := hs
  have hplan' : e.plan ctx (request.fromOffset offset) s = .error f := by
    rw [plan_eq h hclear hs hplugin] at hplan
    rw [plan_eq h hclear hs' hplugin]
    have hheading : e.describe ctx s (request.fromOffset offset).isCategory =
      e.describe ctx s request.isCategory := rfl
    have hsearch : e.searchFor ctx (request.fromOffset offset) = e.searchFor ctx request := rfl
    rw [hheading, hsearch]
    cases hd : e.describe ctx s request.isCategory with
    | error g =>
      rw [hd] at hplan
      exact hplan
    | ok heading =>
      cases hc : e.searchFor ctx request with
      | error g =>
        rw [hd, hc] at hplan
        exact hplan
      | ok search =>
        rw [hd, hc] at hplan
        cases hplan
  simp [page, headlines, hclear, hs', hplugin, hplan', Except.bind, Except.map]

theorem page_of_tripped (h : ctx.token.tripped = true) (offset : Int) :
    e.page ctx request offset = .error .cancelled := by
  simp [page, headlines, h, Except.map]

/-- What stands for nothing has no pages either. -/
theorem page_of_unresolved (hclear : ctx.token.tripped = false)
    (hs : Selection.ofAddress? request.feed request.isCategory request.includeChildren ctx.prefs =
      none) (offset : Int) :
    e.page ctx request offset = .error (.unresolved request.feed.text) := by
  have hs' : Selection.ofAddress? (request.fromOffset offset).feed
      (request.fromOffset offset).isCategory (request.fromOffset offset).includeChildren
      ctx.prefs = none := hs
  simp only [page, headlines, hclear, hs', Bool.false_eq_true, if_false]
  rfl

theorem pluginFeed_of_reference
    (hplugin : ∀ id, Reference.ofAddress? request.feed request.isCategory ≠ some (.plugin id))
    (hs : Selection.ofAddress? request.feed request.isCategory request.includeChildren ctx.prefs =
      some s) : s.pluginFeed? = none := by
  rw [Selection.pluginFeed_eq_none]
  intro id hkind
  exact hplugin id (hkind ▸ (Selection.kind_of_address hs).1)

/-- All pages of a request are parts of one list, unless it has no plan and none is served. The list
has every row that the filter of the plan lets through once, strictly by the keys of its order and
then by article id from the greatest down; and the pages are the same however the rows stand in
their tables. Of a request with a plan a page is not served only where the filter or the search is
beyond the limits of the store. -/
theorem pages_of_one_list (e : Engine) (ctx : Context) (request : Request)
    (hreach : e.store.Reachable)
    (hplugin : ∀ id, Reference.ofAddress? request.feed request.isCategory ≠ some (.plugin id)) :
    ((∀ s p, Selection.ofAddress? request.feed request.isCategory request.includeChildren
        ctx.prefs = some s → e.plan ctx request s ≠ .ok p) ∧
      ∃ f, ∀ offset, e.page ctx request offset = .error f) ∨
      ∃ s p rows, e.Pages ctx request s p rows := by
  have h := hreach.sound
  by_cases htripped : ctx.token.tripped = true
  · refine .inl ⟨?_, .cancelled, ?_⟩
    · intro s p _ hplan
      exact absurd (clear_of_plan hplan) (by simp [htripped])
    · exact page_of_tripped htripped
  · have hclear : ctx.token.tripped = false := by simpa using htripped
    cases hs : Selection.ofAddress? request.feed request.isCategory request.includeChildren
        ctx.prefs with
    | none =>
      exact .inl ⟨by simp, .unresolved request.feed.text, page_of_unresolved hclear hs⟩
    | some s =>
      have hnone := pluginFeed_of_reference hplugin hs
      cases hplan : e.plan ctx request s with
      | error f =>
        refine .inl ⟨?_, f, page_of_no_plan h hclear hs hnone hplan⟩
        intro s' p hs' hplan'
        rw [← Option.some.inj hs', hplan] at hplan'
        cases hplan'
      | ok p => exact .inr ⟨s, p, p.rows e.store, pages_of_plan h hs hnone hplan⟩

/-- Two articles that arrived at one time, in no feed. -/
def twinArticles : List Operation :=
  ["a", "b"].map fun guid =>
    .addArticle ⟨guid, guid, none, "", none, 0, ⟨1715342400, 0⟩, ⟨1715342400, 0⟩⟩
      ⟨1, none, true, false, false, none, none, none, none, "", ""⟩

def twinEngine : Engine := ⟨Store.ofHistory twinArticles, .none, .standard⟩

def twinContext : Context := ⟨1, .standard, ⟨1715342400, 0⟩, .clear⟩

def allOneByOne : Request := { Request.plain (.id (-4)) with page.limit := 1 }

/-- Rows with equal keys are on one page each. -/
theorem pages_of_twin_articles :
    (∀ id, Reference.ofAddress? allOneByOne.feed allOneByOne.isCategory ≠ some (.plugin id)) ∧
    ∃ rows : List Joined, rows.length = 2 ∧ rows.Nodup ∧
      ∀ offset, twinEngine.page twinContext allOneByOne offset =
        .ok (slice 1 offset.toNat (rows.map fun r => r.headline false)) := by
  have hreach : Store.Reachable twinEngine.store := ⟨twinArticles, rfl⟩
  have h := hreach.sound
  have hplugin : ∀ id, Reference.ofAddress? allOneByOne.feed allOneByOne.isCategory ≠
      some (.plugin id) := by
    intro id hid
    cases hid
  refine ⟨hplugin, ?_⟩
  rcases pages_of_one_list twinEngine twinContext allOneByOne hreach hplugin with
    ⟨-, f, hf⟩ | ⟨s, p, rows, hpages⟩
  · have hok : (twinEngine.page twinContext allOneByOne 2).isOk := by decide +kernel
    rw [hf 2] at hok
    cases hok
  · obtain rfl : Selection.ofReference (.special .all) false false .standard = s :=
      Option.some.inj hpages.selected
    have hfilter : p.query.filter = .always := by
      obtain ⟨heading, search, -, hsearch, rfl⟩ := (plan_ok_iff h rfl rfl rfl).mp hpages.planned
      obtain rfl : none = search := Except.ok.inj hsearch
      rfl
    have hperm : rows.Perm (twinEngine.store.matching 1 true .always) := hfilter ▸ hpages.perm h
    have htwo : (twinEngine.store.matching 1 true .always).length = 2 := by decide +kernel
    exact ⟨rows, hperm.length_eq.trans htwo, hpages.nodup,
      fun offset => hpages.served _ (.refl _) (hpages.within rfl) offset⟩

end Engine

end Newsfeed
