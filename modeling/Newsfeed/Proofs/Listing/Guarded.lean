import Newsfeed.Proofs.Listing.Columns
import Newsfeed.Proofs.Listing.Outcome
import Newsfeed.Proofs.Listing.Pages
import Newsfeed.Proofs.Store.Links

/-!
The guard beside the listing. The row that it goes by is the first of the listing among those that
arrived in its window, so a page is not served as soon as such a row stands in front of the one that
the reader remembers.
-/

namespace Newsfeed

open Predicate Time

/-- A page is out of date if it is not the first one and the reader remembers another first row. -/
theorem Page.isOutdated_iff (page : Page) (firstId : Option Int) :
    page.isOutdated firstId ↔ 0 < page.offset ∧ ∃ expected first,
      page.expectedFirst = some expected ∧ expected ≠ 0 ∧ firstId = some first ∧
        first ≠ expected := by
  unfold isOutdated
  cases firstId with
  | none => simp
  | some first =>
    cases page.expectedFirst with
    | none => simp
    | some expected => simp [and_assoc]

namespace Engine

/-- Where the window of the guard starts. -/
def windowStart (e : Engine) (ctx : Context) : Instant :=
  minutesBefore ctx.now e.limits.guardMinutes

/-- The row arrived in the window of the guard: its time is not before the start, by their texts. -/
def isRecent (e : Engine) (ctx : Context) (r : Joined) : Bool :=
  compare r.article.dateEntered (e.windowStart ctx).storedText != .lt

/-- The first row among recent arrivals. -/
def firstRecent? (e : Engine) (ctx : Context) (rows : List Joined) : Option Int :=
  (rows.find? (e.isRecent ctx)).map fun r => r.article.id

/-- The guard applies to the request, which has a plan. -/
structure Watches (e : Engine) (ctx : Context) (request : Request) (s : Selection)
    (p : Plan) : Prop where
  selected : Selection.ofAddress? request.feed request.isCategory request.includeChildren
    ctx.prefs = some s
  noPlugin : s.pluginFeed? = none
  planned : e.plan ctx request s = .ok p
  guarded : p.isGuarded request

variable {e : Engine} {ctx : Context} {request : Request} {s : Selection} {p : Plan}

/-- What the guard reads are the rows of the listing that arrived in its window. -/
theorem matching_recent (e : Engine) (ctx : Context) (q : ListingQuery) :
    e.store.matching q.owner q.allowArchived (q.recentFilter (e.windowStart ctx)) =
      (e.store.matching q.owner q.allowArchived q.filter).filter (e.isRecent ctx) := by
  have hrecent (r : Joined) : (Predicate.compare .dateEntered .ge
      (.time (e.windowStart ctx))).admits (e.store.facts r) = e.isRecent ctx r := by
    rw [Bool.eq_iff_iff, Store.admits_entered, isRecent]
    cases Ord.compare r.article.dateEntered (e.windowStart ctx).storedText <;> decide
  rw [Store.matching, Store.matching, List.filter_filter]
  refine List.filter_congr fun r _ => ?_
  rw [ListingQuery.recentFilter, admits_all, List.all_cons, List.all_cons, List.all_nil,
    Bool.and_true, hrecent, Bool.and_left_comm]

/-- The guard applies to no search, so the plan is made of the heading alone. -/
theorem Watches.plan_eq (h : Store.Sound e.store) (hwatch : e.Watches ctx request s p) :
    ctx.token.tripped = false ∧ ∃ heading, e.describe ctx s request.isCategory = .ok heading ∧
      e.searchFor ctx request = .ok none ∧ p = e.planFor ctx request s heading none := by
  have hclear := clear_of_plan hwatch.planned
  obtain ⟨heading, search, hheading, hsearch, rfl⟩ :=
    (plan_ok_iff h hclear hwatch.selected hwatch.noPlugin).mp hwatch.planned
  have hnone : search = none := by
    have hguarded := hwatch.guarded
    simp only [Plan.isGuarded, planFor, Bool.and_eq_true] at hguarded
    exact Option.isNone_iff_eq_none.mp hguarded.1.1.2
  rw [hnone] at hsearch ⊢
  exact ⟨hclear, heading, hheading, hsearch, rfl⟩

theorem searchText_of_searchFor (h : e.searchFor ctx request = .ok none) :
    searchText? request = none := by
  unfold searchFor at h
  cases htext : searchText? request with
  | none => rfl
  | some text =>
    simp only [htext] at h
    cases hc : e.compileSearch ctx text request.searchLanguage with
    | error f => rw [hc] at h; cases h
    | ok c => rw [hc] at h; cases h

/-- Whatever else is in an answer, the rows that are read for it are the same. -/
theorem fetch_rows (query : ListingQuery) {answer answer' : Answer} (h : answer.rows = [])
    (h' : answer'.rows = []) {rows : List Headline}
    (hrows : (e.fetch ctx query answer').map Answer.rows = .ok rows) :
    e.fetch ctx query answer = .ok { answer with rows } := by
  unfold fetch at hrows ⊢
  by_cases hnever : query.filter.isNever = true
  · rw [if_pos hnever] at hrows ⊢
    have hnone : rows = [] := (Except.ok.inj hrows).symm.trans h'
    rw [hnone, ← h]
  · rw [if_neg hnever] at hrows ⊢
    by_cases htripped : ctx.token.tripped = true
    · rw [if_pos htripped] at hrows
      cases hrows
    · rw [if_neg htripped] at hrows ⊢
      cases hread : (e.reads ctx).headlines query with
      | error f => rw [hread] at hrows; cases hrows
      | ok found =>
        rw [hread] at hrows
        rw [← Except.ok.inj hrows]
        rfl

/-- The guard goes by the first recent row of the listing. -/
theorem Watches.guard_eq (h : Store.Sound e.store) (hwatch : e.Watches ctx request s p) :
    e.guard ctx p.query request.page e.limits.guardMinutes =
      .ok ⟨e.firstRecent? ctx (p.rows e.store),
        request.page.isOutdated (e.firstRecent? ctx (p.rows e.store))⟩ := by
  obtain ⟨hclear, heading, -, -, rfl⟩ := hwatch.plan_eq h
  have hread : e.store.firstId? (e.planFor ctx request s heading none).query
      (e.windowStart ctx) =
      .ok (e.firstRecent? ctx ((e.planFor ctx request s heading none).rows e.store)) := by
    rw [Store.firstId?, e.store.find_of_within _ _ (e.recent_within ctx request s heading _),
      Except.map, matching_recent, SortOrder.sort_filter _ (Store.matching_distinct h _ _ _),
      List.head?_filter, firstRecent?, Plan.rows]
  rw [windowStart] at hread
  simp only [guard, reads, Store.under, GuardedStore.firstId?, CancelToken.guarded, hclear, hread,
    Bool.false_eq_true, if_false]
  rfl

/-- A request to which the guard applies is answered: without rows if its page is out of date, else
with its part of the listing. -/
theorem Watches.headlines_eq (h : Store.Sound e.store) (hwatch : e.Watches ctx request s p) :
    ∃ answer, e.headlines ctx request = .ok answer ∧
      answer.firstId = e.firstRecent? ctx (p.rows e.store) ∧
      answer.invalidated = request.page.isOutdated (e.firstRecent? ctx (p.rows e.store)) ∧
      answer.rows = if answer.invalidated then []
        else slice (e.pageSize request) request.page.offset.toNat
          ((p.rows e.store).map fun r => r.headline request.includeContent) := by
  have hguard := hwatch.guard_eq h
  obtain ⟨hclear, heading, -, -, hp⟩ := hwatch.plan_eq h
  have hanswer : e.headlines ctx request = e.answerPlan ctx request p := by
    simp only [headlines, hclear, hwatch.selected, hwatch.noPlugin, hwatch.planned, Except.bind,
      Bool.false_eq_true, if_false]
  rw [hanswer]
  unfold answerPlan
  simp only [hwatch.guarded, hguard, if_true, bind, Except.bind]
  by_cases houtdated : request.page.isOutdated (e.firstRecent? ctx (p.rows e.store)) = true
  · rw [if_pos houtdated]
    exact ⟨_, rfl, rfl, houtdated.symm, by rfl⟩
  · rw [if_neg houtdated]
    have hquery : p.query = p.queryFrom request.page.offset := by rw [hp]; rfl
    have hw : (Scan.Condition.ofPredicate p.query.filter).Within := by
      rw [hp]
      exact e.planFor_within ctx request s heading
    have hpage := page_of_within h hclear hwatch.selected hwatch.noPlugin hwatch.planned hw
      request.page.offset
    rw [page, headlines_fromOffset h hclear hwatch.selected hwatch.noPlugin hwatch.planned] at hpage
    rw [hquery]
    exact ⟨_, fetch_rows _ rfl rfl hpage, rfl, (Bool.eq_false_iff.mpr houtdated).symm, rfl⟩

/-- A recent row in front of the remembered one is not the remembered one, nor is the first. -/
theorem outdated_of_ahead (hreach : e.store.Reachable) {rows : List Joined} {order : SortOrder}
    (hsorted : rows.Pairwise fun a b => order.compareRows a b = .lt)
    (hrows : ∀ r ∈ rows, e.store.IsRow r ∧ r.copy.owner = ctx.owner) {page : Page}
    (hoffset : 0 < page.offset) {remembered r : Joined} (hremembered : e.store.IsRow remembered)
    (howner : remembered.copy.owner = ctx.owner)
    (hexpected : page.expectedFirst = some remembered.article.id) (hr : r ∈ rows)
    (hrecent : e.isRecent ctx r) (hahead : order.compareRows r remembered = .lt) :
    page.isOutdated (e.firstRecent? ctx rows) := by
  have h := hreach.sound
  obtain ⟨first, hfirst⟩ := Option.isSome_iff_exists.mp
    (List.find?_isSome.mpr ⟨r, hr, hrecent⟩)
  have hfront : order.compareRows first remembered = .lt := by
    rcases order.first_le hsorted hfirst hr hrecent with rfl | hlt
    · exact hahead
    · exact Std.TransCmp.lt_trans hlt hahead
  obtain ⟨hrow, hown⟩ := hrows first (List.mem_of_find?_eq_some hfirst)
  have hother : first.article.id ≠ remembered.article.id := by
    intro hid
    have hself : order.compareRows remembered remembered = .eq := Std.ReflCmp.compare_self
    rw [Store.isRow_of_article h hrow hremembered (hown.trans howner.symm) hid, hself] at hfront
    cases hfront
  have hpos := hreach.article_pos hremembered.article
  refine (page.isOutdated_iff _).mpr ⟨hoffset, remembered.article.id, first.article.id, hexpected,
    by omega, ?_, hother⟩
  rw [firstRecent?, hfirst, Option.map_some]

/-- The guard sees what the page sees. All pages of a request to which it applies are parts of one
list, and the row that it goes by is the first one in this list whose time is not before the stored
form of the start of the window. The request is always answered; it is turned back, without rows,
exactly when it is for a later page and the reader remembers another row as the first, and else it
has its part of the list. So a later page is not served while a row in the window stands in front of
the remembered one. -/
theorem guard_sees_listing (e : Engine) (ctx : Context) (request : Request) (s : Selection)
    (p : Plan) (hreach : e.store.Reachable) (hwatch : e.Watches ctx request s p) :
    ∃ (rows : List Joined) (answer : Answer),
      e.Pages ctx request s p rows ∧
      (∀ offset, e.page ctx request offset = .ok (slice (e.pageSize request) offset.toNat
        (rows.map fun r => r.headline request.includeContent))) ∧
      e.headlines ctx request = .ok answer ∧
      answer.firstId = (rows.find? (e.isRecent ctx)).map (fun r => r.article.id) ∧
      (answer.invalidated ↔ 0 < request.page.offset ∧ ∃ expected first,
        request.page.expectedFirst = some expected ∧ expected ≠ 0 ∧
          answer.firstId = some first ∧ first ≠ expected) ∧
      (answer.rows = if answer.invalidated then []
        else slice (e.pageSize request) request.page.offset.toNat
          (rows.map fun r => r.headline request.includeContent)) ∧
      ∀ remembered, e.store.IsRow remembered → remembered.copy.owner = ctx.owner →
        request.page.expectedFirst = some remembered.article.id → 0 < request.page.offset →
        ∀ r ∈ rows, e.isRecent ctx r →
          (s.orderFor request.orderBy ctx.prefs
            (e.plugins.orderFor? request.orderBy)).compareRows r remembered = .lt →
          answer.invalidated ∧ answer.rows = [] := by
  have h := hreach.sound
  have hpages := pages_of_plan h hwatch.selected hwatch.noPlugin hwatch.planned
  obtain ⟨-, heading, -, hsearch, -⟩ := hwatch.plan_eq h
  have hw := hpages.within (searchText_of_searchFor hsearch)
  obtain ⟨answer, hanswer, hfirst, hinvalidated, hserved⟩ := hwatch.headlines_eq h
  refine ⟨p.rows e.store, answer, hpages, hpages.served e.store (.refl _) hw, hanswer, hfirst, ?_,
    hserved, ?_⟩
  · rw [hinvalidated, hfirst]
    exact request.page.isOutdated_iff _
  · intro remembered hremembered howner hexpected hoffset r hr hrecent hahead
    have houtdated := outdated_of_ahead hreach hpages.sorted
      (fun r hr => ⟨((hpages.matching r).mp hr).row, ((hpages.matching r).mp hr).owner⟩) hoffset
      hremembered howner hexpected hr hrecent hahead
    have hflag : answer.invalidated = true := hinvalidated.trans houtdated
    exact ⟨hflag, by rw [hserved, if_pos hflag]⟩

/-- The second page, for a reader who has not seen the twin that stands in front. -/
def behindTwin : Request := { allOneByOne with page := ⟨1, 1, some 1⟩ }

def twinSelection : Selection := .ofReference (.special .all) false false .standard

/-- The page is turned back, as the other twin is in the window and in front of the remembered one. -/
theorem guard_sees_listing_twins :
    ∃ p, twinEngine.Watches twinContext behindTwin twinSelection p ∧
      ∃ answer, twinEngine.headlines twinContext behindTwin = .ok answer ∧
        answer.invalidated ∧ answer.rows = [] := by
  have hreach : Store.Reachable twinEngine.store := ⟨twinArticles, rfl⟩
  have hwatch : twinEngine.Watches twinContext behindTwin twinSelection
      (twinEngine.planFor twinContext behindTwin twinSelection (.titled "All articles") none) :=
    ⟨rfl, rfl, (plan_ok_iff hreach.sound rfl rfl rfl).mpr ⟨_, _, rfl, rfl, rfl⟩, rfl⟩
  have htwins : ∃ remembered ∈ twinEngine.store.joined true, ∃ r ∈ twinEngine.store.joined true,
      remembered.article.id = 1 ∧ remembered.copy.owner = 1 ∧ r.copy.owner = 1 ∧
        twinEngine.isRecent twinContext r ∧
        SortOrder.standard.compareRows r remembered = .lt := by decide +kernel
  obtain ⟨remembered, hremembered, r, hr, hid, howner, hrowner, hrecent, hahead⟩ := htwins
  obtain ⟨hrow, -⟩ := (Store.mem_joined hreach.sound).mp hremembered
  obtain ⟨hrrow, hkept⟩ := (Store.mem_joined hreach.sound).mp hr
  obtain ⟨rows, answer, hpages, -, hanswer, -, -, -, hturned⟩ :=
    guard_sees_listing twinEngine twinContext behindTwin twinSelection _ hreach hwatch
  have hlisted : r ∈ rows :=
    (hpages.matching r).mpr ⟨hrrow, hkept, hrowner, admits_always _⟩
  obtain ⟨hflag, hnone⟩ := hturned remembered hrow howner (congrArg some hid.symm) (by decide) r
    hlisted hrecent hahead
  exact ⟨_, hwatch, answer, hanswer, hflag, hnone⟩

end Engine

end Newsfeed
