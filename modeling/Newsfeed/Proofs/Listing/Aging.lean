import Newsfeed.Proofs.Listing.Guarded
import Newsfeed.Proofs.Listing.Selected

/-!
The guard while nothing is written. As time passes rows leave its window and none enter it, so the
first row among recent arrivals can be another one without any arrival: a later page is turned back
as soon as the remembered row has left and another one is still there.
-/

namespace Newsfeed

open Time

/-- The same request for another page, by a reader who remembers a first row. -/
def Request.onward (request : Request) (offset first : Int) : Request :=
  { request with page := { request.page with offset, expectedFirst := some first } }

/-- The context at another time. -/
def Context.atTime (ctx : Context) (now : Instant) : Context := { ctx with now }

/-- What came after an instant came after what is not behind it. -/
theorem TimeOrder.after_of_le {stored : String} {t u : Instant}
    (hle : compare t.storedText u.storedText ≠ .gt) (h : TimeOrder.byText stored u .gt) :
    TimeOrder.byText stored t .gt := by
  have hbehind : compare u.storedText stored = .lt := Std.OrientedCmp.lt_of_gt h
  have hfront := Std.TransCmp.lt_of_isLE_of_lt (Ordering.isLE_iff_ne_gt.mpr hle) hbehind
  exact Std.OrientedCmp.gt_of_lt hfront

namespace Engine

variable {e : Engine} {ctx : Context} {request : Request} {s : Selection} {p : Plan} {r : Joined}

/-- The instants that divide the rows of a request at some time: where the window of the guard
starts, and after which the rows of the reference are to have arrived or been read. -/
def cutoffs (e : Engine) (ctx : Context) (s : Selection) : List Instant :=
  e.windowStart ctx :: (e.threshold? ctx s).toList

/-- The row is listed and in the window of the guard. -/
structure InSight (e : Engine) (ctx : Context) (request : Request) (s : Selection) (r : Joined) :
    Prop where
  listed : e.Lists ctx .byText request s none r
  recent : e.isRecent ctx r

theorem Watches.onward (h : Store.Sound e.store) (hwatch : e.Watches ctx request s p)
    (now : Instant) (offset first : Int) :
    ∃ p', e.Watches (ctx.atTime now) (request.onward offset first) s p' := by
  obtain ⟨hclear, heading, hheading, hsearch, rfl⟩ := hwatch.plan_eq h
  have htext : searchText? (request.onward offset first) = none := searchText_of_searchFor hsearch
  have hsearch' : e.searchFor (ctx.atTime now) (request.onward offset first) = .ok none := by
    rw [searchFor, htext]
  have hselected : Selection.ofAddress? (request.onward offset first).feed
      (request.onward offset first).isCategory (request.onward offset first).includeChildren
      (ctx.atTime now).prefs = some s := hwatch.selected
  have hclear' : (ctx.atTime now).token.tripped = false := hclear
  have hplan := (plan_ok_iff h hclear' hselected hwatch.noPlugin).mpr
    ⟨heading, none, hheading, hsearch', rfl⟩
  exact ⟨_, hselected, hwatch.noPlugin, hplan, hwatch.guarded⟩

theorem Watches.mem_rows (h : Store.Sound e.store) (hwatch : e.Watches ctx request s p) :
    r ∈ p.rows e.store ↔ e.Lists ctx .byText request s none r := by
  obtain ⟨-, heading, -, -, rfl⟩ := hwatch.plan_eq h
  rw [Plan.rows, (SortOrder.sort_perm _ _).mem_iff]
  exact (Store.mem_matching h).trans (lists_iff h hwatch.selected heading none)

/-- The first recent row of the listing is in sight, and there is one if any row is. -/
theorem Watches.find_inSight (h : Store.Sound e.store) (hwatch : e.Watches ctx request s p)
    (hfound : (p.rows e.store).find? (e.isRecent ctx) = some r) : e.InSight ctx request s r :=
  ⟨(hwatch.mem_rows h).mp (List.mem_of_find?_eq_some hfound), List.find?_some hfound⟩

theorem Watches.exists_find (h : Store.Sound e.store) (hwatch : e.Watches ctx request s p)
    (hr : e.InSight ctx request s r) :
    ∃ first, (p.rows e.store).find? (e.isRecent ctx) = some first :=
  Option.isSome_iff_exists.mp (List.find?_isSome.mpr ⟨r, (hwatch.mem_rows h).mpr hr.listed,
    hr.recent⟩)

/-- A later page is turned back if the first recent row is not the remembered one. -/
theorem Watches.turned_back_iff (h : Store.Sound e.store) (hwatch : e.Watches ctx request s p)
    (hoffset : 0 < request.page.offset) {first : Int}
    (hexpected : request.page.expectedFirst = some first) (hpos : first ≠ 0) :
    ∃ answer, e.headlines ctx request = .ok answer ∧
      (answer.invalidated ↔ ∃ r, (p.rows e.store).find? (e.isRecent ctx) = some r ∧
        r.article.id ≠ first) := by
  obtain ⟨answer, hanswer, -, hinvalidated, -⟩ := hwatch.headlines_eq h
  refine ⟨answer, hanswer, ?_⟩
  rw [hinvalidated, Page.isOutdated_iff, hexpected]
  constructor
  · rintro ⟨-, expected, found, hsame, -, hfound, hne⟩
    obtain rfl : first = expected := Option.some.inj hsame
    obtain ⟨r, hr, rfl⟩ := Option.map_eq_some_iff.mp hfound
    exact ⟨r, hr, hne⟩
  · rintro ⟨r, hr, hne⟩
    refine ⟨hoffset, first, r.article.id, rfl, hpos, ?_, hne⟩
    rw [firstRecent?, hr, Option.map_some]

/-- A row that is the first stays so as long as it is in sight and no others come. -/
theorem Watches.first_stays {p' : Plan} {later : Instant} {offset first : Int}
    (h : Store.Sound e.store) (hwatch : e.Watches ctx request s p)
    (hwatch' : e.Watches (ctx.atTime later) (request.onward offset first) s p')
    (hfound : (p.rows e.store).find? (e.isRecent ctx) = some r)
    (hstays : e.InSight (ctx.atTime later) (request.onward offset first) s r)
    (hnone : ∀ q, e.InSight (ctx.atTime later) (request.onward offset first) s q →
      e.InSight ctx request s q) :
    (p'.rows e.store).find? (e.isRecent (ctx.atTime later)) = some r := by
  have hsorted := (pages_of_plan h hwatch.selected hwatch.noPlugin hwatch.planned).sorted
  have hsorted' := (pages_of_plan h hwatch'.selected hwatch'.noPlugin hwatch'.planned).sorted
  refine SortOrder.first_of_fewer _ hsorted hsorted' (fun q hq hrecent => ?_) hfound
    ((hwatch'.mem_rows h).mpr hstays.listed) hstays.recent
  have hbefore := hnone q ⟨(hwatch'.mem_rows h).mp hq, hrecent⟩
  exact ⟨(hwatch.mem_rows h).mpr hbefore.listed, hbefore.recent⟩

/-- Most references have the same rows at all times. -/
theorem covers_atTime {order : TimeOrder} (hfresh : s.kind ≠ .special .fresh)
    (hread : s.kind ≠ .special .recentlyRead) (now : Instant) :
    e.Covers (ctx.atTime now) order s r ↔ e.Covers ctx order s r := by
  unfold Covers
  cases hkind : s.kind with
  | special feed =>
    cases feed with
    | fresh => exact absurd hkind hfresh
    | recentlyRead => exact absurd hkind hread
    | _ => rfl
  | _ => rfl

/-- No row enters a view. Where the time plays a part in what is covered, that is all read or all
unread, so the adaptive view hides nothing. -/
theorem shows_of_later {later : Instant}
    (hcovered : e.Covers (ctx.atTime later) .byText s r)
    (h : e.Shows (ctx.atTime later) .byText request s false r) :
    e.Shows ctx .byText request s false r := by
  unfold Shows at h ⊢
  cases hmode : request.viewMode with
  | adaptive =>
    rw [hmode] at h
    rintro ⟨hsearch, hstarred, hcounted, other, hother, hkept, howner, hothers, hunread⟩
    by_cases hfresh : s.kind = .special .fresh
    · simp only [Covers, hfresh] at hcovered
      exact hcovered.1
    · by_cases hread : s.kind = .special .recentlyRead
      · simp only [Covers, hread] at hothers
        rw [hothers.1] at hunread
        cases hunread
      · exact h ⟨hsearch, hstarred, hcounted, other, hother, hkept, howner,
          (covers_atTime hfresh hread later).mpr hothers, hunread⟩
  | _ =>
    rw [hmode] at h
    exact h

section Passing

variable {later : Instant} (hlater : later.lt ctx.now = false)
  (hclock : ctx.now.nanos < 2000000000)
  (hplain : ∀ t ∈ e.cutoffs (ctx.atTime later) s, t.HasPlainYear)
include hlater hclock hplain

/-- No row enters the window of the guard. -/
theorem isRecent_of_later (h : e.isRecent (ctx.atTime later) r) : e.isRecent ctx r := by
  have hle : compare (e.windowStart ctx).storedText (e.windowStart (ctx.atTime later)).storedText ≠
      .gt := before_le hlater hclock (hplain _ List.mem_cons_self)
  simp only [isRecent, bne_iff_ne, ne_eq, ← Ordering.isGE_iff_ne_lt] at h ⊢
  exact Std.TransCmp.isGE_trans h (Std.OrientedCmp.isGE_of_isLE (Ordering.isLE_iff_ne_gt.mpr hle))

/-- No row enters what a reference covers. -/
theorem covers_of_later (h : e.Covers (ctx.atTime later) .byText s r) :
    e.Covers ctx .byText s r := by
  have hle {unit n : Int} (ht : before later unit n ∈ (e.threshold? (ctx.atTime later) s)) :
      compare (before ctx.now unit n).storedText (before later unit n).storedText ≠ .gt :=
    before_le hlater hclock (hplain _ (List.mem_cons_of_mem _ (Option.mem_toList.mpr ht)))
  by_cases hfresh : s.kind = .special .fresh
  · unfold Covers at h ⊢
    simp only [hfresh] at h ⊢
    exact ⟨h.1, h.2.1, TimeOrder.after_of_le (hle (by simp only [threshold?, hfresh]; rfl)) h.2.2⟩
  · by_cases hread : s.kind = .special .recentlyRead
    · unfold Covers at h ⊢
      simp only [hread] at h ⊢
      obtain ⟨hunread, read, hlast, hafter⟩ := h
      exact ⟨hunread, read, hlast,
        TimeOrder.after_of_le (hle (by simp only [threshold?, hread]; rfl)) hafter⟩
    · exact (covers_atTime hfresh hread later).mp h

/-- No row enters the listing. -/
theorem lists_of_later {offset first : Int}
    (h : e.Lists (ctx.atTime later) .byText (request.onward offset first) s none r) :
    e.Lists ctx .byText request s none r where
  row := h.row
  owner := h.owner
  covered := covers_of_later hlater hclock hplain h.covered
  live := h.live
  shown := shows_of_later h.covered h.shown
  sought := h.sought
  start := h.start
  since := h.since

/-- No row comes in sight. -/
theorem inSight_of_later {offset first : Int}
    (h : e.InSight (ctx.atTime later) (request.onward offset first) s r) :
    e.InSight ctx request s r where
  listed := lists_of_later hlater hclock hplain h.listed
  recent := isRecent_of_later hlater hclock hplain h.recent

end Passing

/-- While nothing is written, a reader who remembers the first row is turned back only if that row is
out of sight by then, or another one has come in sight. None comes as long as times are told apart
by their texts, that is if the window and the reference start in the years 0 to 9999: then the
reader is turned back exactly when the remembered row is out of sight and another one is not. So the
reader is not turned back as long as the row stays. -/
theorem turned_back_iff_first_left (e : Engine) (ctx : Context) (request : Request) (s : Selection)
    (p : Plan) (hreach : e.store.Reachable) (hwatch : e.Watches ctx request s p)
    (answer : Answer) (hanswer : e.headlines ctx request = .ok answer) (first : Int)
    (hfirst : answer.firstId = some first) (later : Instant) (hlater : later.lt ctx.now = false)
    (offset : Int) (hoffset : 0 < offset) :
    ∃ answer', e.headlines (ctx.atTime later) (request.onward offset first) = .ok answer' ∧
      (answer'.invalidated →
        (∀ r, e.InSight (ctx.atTime later) (request.onward offset first) s r →
          r.article.id ≠ first) ∨
        ∃ r, e.InSight (ctx.atTime later) (request.onward offset first) s r ∧
          ¬e.InSight ctx request s r) ∧
      (ctx.now.nanos < 2000000000 →
        (∀ t ∈ e.cutoffs (ctx.atTime later) s, t.HasPlainYear) →
        (answer'.invalidated ↔
          (∃ r, e.InSight (ctx.atTime later) (request.onward offset first) s r) ∧
          ∀ r, e.InSight (ctx.atTime later) (request.onward offset first) s r →
            r.article.id ≠ first)) := by
  have h := hreach.sound
  obtain ⟨p', hwatch'⟩ := hwatch.onward h later offset first
  obtain ⟨_, hthen, hfound, -⟩ := hwatch.headlines_eq h
  rw [hanswer] at hthen
  obtain rfl := Except.ok.inj hthen
  rw [hfound, firstRecent?] at hfirst
  obtain ⟨row, hrow, rfl⟩ := Option.map_eq_some_iff.mp hfirst
  have hsight := hwatch.find_inSight h hrow
  have hpos := hreach.article_pos hsight.listed.row.article
  obtain ⟨answer', hanswer', hturned⟩ := hwatch'.turned_back_iff h hoffset rfl (by omega)
  -- As long as none comes in sight, the flag means that the remembered row is out of sight.
  have hleft (hnone : ∀ r, e.InSight (ctx.atTime later) (request.onward offset row.article.id) s r →
      e.InSight ctx request s r) (hflag : answer'.invalidated) (r : Joined)
      (hr : e.InSight (ctx.atTime later) (request.onward offset row.article.id) s r) :
      r.article.id ≠ row.article.id := by
    intro hid
    obtain ⟨row', hrow', hne⟩ := hturned.mp hflag
    obtain rfl : r = row := Store.isRow_of_article h hr.listed.row hsight.listed.row
      (hr.listed.owner.trans hsight.listed.owner.symm) hid
    rw [hwatch.first_stays h hwatch' hrow hr hnone] at hrow'
    rw [Option.some.inj hrow'] at hne
    exact hne rfl
  refine ⟨answer', hanswer', ?_, ?_⟩
  · intro hflag
    by_cases hnone : ∀ r, e.InSight (ctx.atTime later) (request.onward offset row.article.id) s r →
        e.InSight ctx request s r
    · exact .inl (hleft hnone hflag)
    · rw [not_forall] at hnone
      obtain ⟨r, hr⟩ := hnone
      exact .inr ⟨r, Classical.not_imp.mp hr⟩
  · intro hclock hplain
    constructor
    · intro hflag
      obtain ⟨row', hrow', -⟩ := hturned.mp hflag
      exact ⟨⟨row', hwatch'.find_inSight h hrow'⟩,
        hleft (fun r => inSight_of_later hlater hclock hplain) hflag⟩
    · rintro ⟨⟨r, hr⟩, hgone⟩
      obtain ⟨row', hrow'⟩ := hwatch'.exists_find h hr
      exact hturned.mpr ⟨row', hrow', hgone row' (hwatch'.find_inSight h hrow')⟩

/-- An article of some score that arrives so many seconds after noon, in no feed. -/
def arriving (guid : String) (score seconds : Int) : Operation :=
  .addArticle ⟨guid, guid, none, "", none, score, ⟨1715342400 + seconds, 0⟩,
      ⟨1715342400 + seconds, 0⟩⟩
    ⟨1, none, true, false, false, none, none, none, none, "", ""⟩

/-- The better article arrives at noon, the other one fifty minutes later. -/
def agingEngine : Engine :=
  ⟨Store.ofHistory [arriving "a" 5 0, arriving "b" 0 3000], .none, .standard⟩

/-- At ten minutes to one. -/
def agingContext : Context := ⟨1, .standard, ⟨1715345400, 0⟩, .clear⟩

def fiveToOne : Instant := ⟨1715345700, 0⟩

def twentyPastOne : Instant := ⟨1715347200, 0⟩

/-- All articles, on some page. -/
def allOnPage (page : Page) : Request := { Request.plain (.id (-4)) with page }

def firstPage : Request := allOnPage ⟨0, 0, none⟩

def agingPlan : Plan :=
  agingEngine.planFor agingContext firstPage allArticles (.titled "All articles") none

theorem aging_watches : agingEngine.Watches agingContext firstPage allArticles agingPlan := by
  have hreach : agingEngine.store.Reachable := ⟨_, rfl⟩
  exact ⟨rfl, rfl, (plan_ok_iff hreach.sound rfl rfl rfl).mpr ⟨_, _, rfl, rfl, rfl⟩, rfl⟩

/-- The better article is in front, and in the window until one. -/
theorem aging_best : ∃ best, agingEngine.store.IsRow best ∧ best.copy.owner = 1 ∧
    best.article.id = 1 ∧ agingEngine.isRecent agingContext best ∧
    agingEngine.isRecent (agingContext.atTime fiveToOne) best ∧
    ∀ r, agingEngine.store.IsRow r → SortOrder.standard.compareRows r best ≠ .lt := by
  have hreach : agingEngine.store.Reachable := ⟨_, rfl⟩
  have hbest : ∃ best ∈ agingEngine.store.joined true, best.copy.owner = 1 ∧
      best.article.id = 1 ∧ agingEngine.isRecent agingContext best ∧
      agingEngine.isRecent (agingContext.atTime fiveToOne) best ∧
      ∀ r ∈ agingEngine.store.joined true, SortOrder.standard.compareRows r best ≠ .lt := by
    decide +kernel
  obtain ⟨best, hmem, howner, hid, hrecent, hstill, hfront⟩ := hbest
  obtain ⟨hrow, -⟩ := (Store.mem_joined hreach.sound).mp hmem
  refine ⟨best, hrow, howner, hid, hrecent, hstill, fun r hr => ?_⟩
  exact hfront r ((Store.mem_joined hreach.sound).mpr ⟨hr, .inr rfl⟩)

theorem aging_lists (hr : agingEngine.store.IsRow r) (howner : r.copy.owner = 1) (now : Instant)
    (page : Page) :
    agingEngine.Lists (agingContext.atTime now) .byText (allOnPage page) allArticles none r :=
  ⟨hr, howner, trivial, .inr rfl, trivial, by simp, by simp [allOnPage, Request.plain],
    by simp [allOnPage, Request.plain]⟩

theorem aging_first :
    ∃ answer, agingEngine.headlines agingContext firstPage = .ok answer ∧
      answer.firstId = some 1 := by
  have h : agingEngine.store.Sound := Store.Reachable.sound ⟨_, rfl⟩
  obtain ⟨answer, hanswer, hfirst, -⟩ := aging_watches.headlines_eq h
  obtain ⟨best, hrow, howner, hid, hrecent, -, hfront⟩ := aging_best
  have hmem := (aging_watches.mem_rows h).mpr (aging_lists hrow howner agingContext.now _)
  obtain ⟨first, hfound⟩ := Option.isSome_iff_exists.mp
    (List.find?_isSome.mpr ⟨best, hmem, hrecent⟩)
  have hlisted := (aging_watches.mem_rows h).mp (List.mem_of_find?_eq_some hfound)
  have hsorted := (pages_of_plan h aging_watches.selected aging_watches.noPlugin
    aging_watches.planned).sorted
  refine ⟨answer, hanswer, ?_⟩
  rw [hfirst, firstRecent?, hfound]
  rcases SortOrder.first_le _ hsorted hfound hmem hrecent with rfl | hless
  · exact congrArg some hid
  · exact absurd hless (hfront first hlisted.row)

/-- At five to one the better article is still in the window, and the second page is served. -/
theorem not_turned_back_before_one :
    agingEngine.Watches agingContext firstPage allArticles agingPlan ∧
      ∃ answer', agingEngine.headlines (agingContext.atTime fiveToOne) (firstPage.onward 1 1) =
        .ok answer' ∧ answer'.invalidated = false := by
  have hreach : agingEngine.store.Reachable := ⟨_, rfl⟩
  obtain ⟨answer, hanswer, hfirst⟩ := aging_first
  obtain ⟨best, hrow, howner, hid, -, hstill, -⟩ := aging_best
  have hplain : ∀ t ∈ agingEngine.cutoffs (agingContext.atTime fiveToOne) allArticles,
      t.HasPlainYear := by
    unfold Instant.HasPlainYear
    decide +kernel
  obtain ⟨answer', hanswer', -, hturned⟩ := turned_back_iff_first_left agingEngine agingContext
    firstPage allArticles agingPlan hreach aging_watches answer hanswer 1 hfirst fiveToOne
    (by decide) 1 (by decide)
  refine ⟨aging_watches, answer', hanswer', ?_⟩
  rw [← Bool.not_eq_true, hturned (by decide) hplain]
  rintro ⟨-, hleft⟩
  exact hleft best ⟨aging_lists hrow howner fiveToOne _, hstill⟩ hid

/-- At twenty past one the second page is turned back, though nothing has arrived since the first one
was served: the better article has left the window, and the other one is still in it. -/
theorem turned_back_without_arrival :
    ¬∀ (e : Engine) (ctx : Context) (request : Request) (s : Selection) (p : Plan),
      e.store.Reachable → e.Watches ctx request s p → request.page.offset = 0 →
      ∀ answer first, e.headlines ctx request = .ok answer → answer.firstId = some first →
      ∀ later : Instant, later.lt ctx.now = false → ∀ offset, 0 < offset →
      ∀ answer', e.headlines (ctx.atTime later) (request.onward offset first) = .ok answer' →
        answer'.invalidated = false := by
  intro hserved
  obtain ⟨answer, hanswer, hfirst⟩ := aging_first
  have hflag : (agingEngine.headlines (agingContext.atTime twentyPastOne)
      (firstPage.onward 1 1)).map Answer.invalidated = .ok true := by decide +kernel
  cases hlater : agingEngine.headlines (agingContext.atTime twentyPastOne)
      (firstPage.onward 1 1) with
  | error f =>
    rw [hlater] at hflag
    cases hflag
  | ok answer' =>
    have hnot := hserved agingEngine agingContext firstPage allArticles agingPlan ⟨_, rfl⟩
      aging_watches rfl answer 1 hanswer hfirst twentyPastOne (by decide) 1 (by decide) answer'
      hlater
    rw [hlater] at hflag
    have hturned : answer'.invalidated = true := Except.ok.inj hflag
    rw [hnot] at hturned
    cases hturned

end Engine

end Newsfeed
