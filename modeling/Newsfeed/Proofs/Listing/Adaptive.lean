import Newsfeed.Proofs.Counters.Agreement
import Newsfeed.Proofs.Listing.Pages

/-!
The adaptive view shows the unread rows where there are any and all rows elsewhere. Whether there
are any is decided on a number; where that covers archived copies which the listing leaves out, no
row at all may be shown.
-/

namespace Newsfeed

open Predicate

/-- The request in another view. -/
def Request.inView (r : Request) (mode : ViewMode) : Request := { r with viewMode := mode }

namespace Engine

/-- All pages of the request are parts of the rows. -/
def Serves (e : Engine) (ctx : Context) (request : Request) (rows : List Headline) : Prop :=
  ∀ offset, e.page ctx request offset = .ok (slice (e.pageSize request) offset.toNat rows)

/-- The rows of a selection that a view shows, as they are listed. -/
def viewRows (e : Engine) (ctx : Context) (request : Request) (s : Selection) (view : Predicate) :
    List Headline :=
  ((s.orderFor request.orderBy ctx.prefs (e.plugins.orderFor? request.orderBy)).sort
    (e.store.matching ctx.owner s.allowArchived (Predicate.all [e.ownFilter ctx s, view]))).map
      fun r => r.headline request.includeContent

variable {e : Engine} {ctx : Context} {request : Request} {s : Selection}

theorem viewRows_congr {view view' : Predicate}
    (h : ∀ row, (e.ownFilter ctx s).admits row → view.admits row = view'.admits row) :
    e.viewRows ctx request s view = e.viewRows ctx request s view' := by
  have hadmits (row : Facts) : (Predicate.all [e.ownFilter ctx s, view]).admits row =
      (Predicate.all [e.ownFilter ctx s, view']).admits row := by
    rw [admits_all, admits_all]
    cases hown : (e.ownFilter ctx s).admits row with
    | false => simp [hown]
    | true => simp [hown, h row hown]
  rw [viewRows, matching_congr _ _ hadmits, viewRows]

theorem viewRows_eq_nil {view : Predicate} : e.viewRows ctx request s view = [] ↔
    e.store.matching ctx.owner s.allowArchived (Predicate.all [e.ownFilter ctx s, view]) = [] := by
  rw [viewRows, List.map_eq_nil_iff, ← List.length_eq_zero_iff,
    (SortOrder.sort_perm _ _).length_eq, List.length_eq_zero_iff]

section Plain

variable (hsearch : searchText? request = none) (hstart : request.start = none)
  (hsince : request.sinceId = none)
include hstart hsince

theorem planFor_rows (heading : Heading) :
    ((e.planFor ctx request s heading none).rows e.store).map
        (fun r => r.headline request.includeContent) =
      e.viewRows ctx request s (e.viewOf ctx request s false) := by
  have hadmits (row : Facts) : (e.planFor ctx request s heading none).query.filter.admits row =
      (Predicate.all [e.ownFilter ctx s, e.viewOf ctx request s false]).admits row := by
    change (Predicate.all (.always :: e.otherFilters ctx request s false)).admits row = _
    simp [admits_all, otherFilters, hstart, hsince, admits_always, Bool.and_comm]
  rw [Plan.rows, matching_congr _ _ hadmits]
  rfl

include hsearch

/-- The pages of a request for a selection that has a heading. -/
theorem serves_of_heading (h : Store.Sound e.store) (hclear : ctx.token.tripped = false)
    (hs : Selection.ofAddress? request.feed request.isCategory request.includeChildren ctx.prefs =
      some s) (hplugin : s.pluginFeed? = none) {heading : Heading}
    (hheading : e.describe ctx s request.isCategory = .ok heading) :
    e.Serves ctx request (e.viewRows ctx request s (e.viewOf ctx request s false)) := by
  intro offset
  have hnone : e.searchFor ctx request = .ok none := by rw [searchFor, hsearch]
  have hplan := (plan_ok_iff h hclear hs hplugin).mpr ⟨heading, none, hheading, hnone, rfl⟩
  have hw := e.planFor_within ctx request s heading
  rw [page_of_within h hclear hs hplugin hplan hw, planFor_rows hstart hsince]

/-- The pages of a request for a selection in any view, or what keeps it from being listed in all of
them. -/
theorem serves_view (h : Store.Sound e.store)
    (hs : Selection.ofAddress? request.feed request.isCategory request.includeChildren ctx.prefs =
      some s) (hplugin : s.pluginFeed? = none) :
    (∃ f, ∀ mode offset, e.page ctx (request.inView mode) offset = .error f) ∨
      ∀ mode, e.Serves ctx (request.inView mode)
        (e.viewRows ctx request s (e.viewOf ctx (request.inView mode) s false)) := by
  by_cases htripped : ctx.token.tripped = true
  · refine .inl ⟨.cancelled, fun mode offset => ?_⟩
    simp [page, headlines, htripped, Except.map]
  · have hclear : ctx.token.tripped = false := by simpa using htripped
    have hs' (mode : ViewMode) : Selection.ofAddress? (request.inView mode).feed
        (request.inView mode).isCategory (request.inView mode).includeChildren ctx.prefs =
          some s := hs
    cases hheading : e.describe ctx s request.isCategory with
    | error f =>
      refine .inl ⟨f, fun mode => page_of_no_plan h hclear (hs' mode) hplugin ?_⟩
      rw [plan_eq h hclear (hs' mode) hplugin]
      have hsame : e.describe ctx s (request.inView mode).isCategory = .error f := hheading
      rw [hsame]
      rfl
    | ok heading =>
      exact .inr fun mode => serves_of_heading (show searchText? (request.inView mode) = none from
        hsearch) hstart hsince h hclear (hs' mode) hplugin hheading

end Plain

/-- Hidden rows are counted beside those that are listed. -/
theorem unreadRows_eq_nil (h : Store.Sound e.store)
    (hs : Selection.ofAddress? request.feed request.isCategory request.includeChildren ctx.prefs =
      some s) (hcounted : s.isCounted request.isCategory) :
    e.unreadRows ctx s.kind (e.ownFilter ctx s) = [] ↔
      e.viewRows ctx request s isUnread = [] ∧ e.hiddenRows ctx s = [] := by
  rw [viewRows_eq_nil]
  by_cases hcategory : ∃ id, s.kind = .category id
  · obtain ⟨id, hkind⟩ := hcategory
    have hallow : s.allowArchived = false := by
      rw [(Selection.kind_of_address hs).2, hkind]
      rfl
    have hhidden : e.hiddenRows ctx s = [] := by simp [hiddenRows, hkind]
    simp [unreadRows, hallow, hhidden, hkind, Reference.countsArchived]
  · have hforest : e.ownFilter ctx s = s.filter ctx e.limits none := by
      unfold ownFilter forestOf
      cases hkind : s.kind with
      | category id => exact absurd ⟨id, hkind⟩ hcategory
      | _ => rfl
    have hlength := unreadRows_length h hs hcounted
    rw [hforest, ← List.length_eq_zero_iff, hlength, Nat.add_eq_zero_iff,
      List.length_eq_zero_iff, List.length_eq_zero_iff]

/-- What is fresh is unread. -/
theorem unread_of_fresh {row : Facts} (hkind : s.kind = .special .fresh)
    (hrow : (e.ownFilter ctx s).admits row) : isUnread.admits row := by
  rw [ownFilter, Selection.filter, hkind] at hrow
  simp only [SpecialFeed.filter] at hrow
  rw [admits_all] at hrow
  simp only [List.all_cons, Bool.and_eq_true] at hrow
  exact hrow.1

/-- Which rows the adaptive view shows. -/
theorem adaptive_rows (h : Store.Sound e.store)
    (hs : Selection.ofAddress? request.feed request.isCategory request.includeChildren ctx.prefs =
      some s) (hstarred : s.kind ≠ .special .starred) (hcounted : s.isCounted request.isCategory) :
    e.viewRows ctx request s (e.viewOf ctx (request.inView .adaptive) s false) =
      if e.viewRows ctx request s isUnread ≠ [] ∨ s.kind = .labels ∧ e.hiddenRows ctx s ≠ [] then
        e.viewRows ctx request s isUnread
      else e.viewRows ctx request s .always := by
  have hview : e.viewOf ctx (request.inView .adaptive) s false =
      if e.unreadRows ctx s.kind (e.ownFilter ctx s) ≠ [] then isUnread else .always := by
    have hcounted' : s.isCounted (request.inView .adaptive).isCategory = true := hcounted
    simp [viewOf, Request.inView, hstarred] at hcounted' ⊢
    simp [hcounted']
  rw [hview]
  by_cases hfresh : s.kind = .special .fresh
  · -- There is nothing but unread rows, so it does not matter what is counted.
    have hsame : e.viewRows ctx request s .always = e.viewRows ctx request s isUnread :=
      viewRows_congr fun row hrow => by rw [admits_always, unread_of_fresh hfresh hrow]
    rw [hsame, ite_self]
    split
    · rfl
    · exact hsame
  · have hhidden : e.hiddenRows ctx s ≠ [] → s.kind = .labels := by
      intro hsome
      by_contra hlabels
      exact hsome (by simp [hiddenRows, hfresh, hlabels])
    have hunread : e.unreadRows ctx s.kind (e.ownFilter ctx s) ≠ [] ↔
        e.viewRows ctx request s isUnread ≠ [] ∨ s.kind = .labels ∧ e.hiddenRows ctx s ≠ [] := by
      rw [ne_eq, unreadRows_eq_nil h hs hcounted, not_and_or, and_iff_right_of_imp hhidden]
    simp only [hunread]
    split <;> rfl

theorem adaptive_view_rows (h : Store.Sound e.store)
    (hs : Selection.ofAddress? request.feed request.isCategory request.includeChildren ctx.prefs =
      some s) (hstarred : s.kind ≠ .special .starred) (hplugin : s.pluginFeed? = none)
    (hspecial : ∀ feed, s.kind = .special feed → request.isCategory = false) :
    let rows := fun mode => e.viewRows ctx request s (e.viewOf ctx (request.inView mode) s false)
    rows .adaptive = if rows .unread ≠ [] ∨ s.kind = .labels ∧ e.hiddenRows ctx s ≠ [] then
      rows .unread else rows .allArticles := by
  have hall : e.viewOf ctx (request.inView .allArticles) s false = .always := rfl
  have hunread : e.viewOf ctx (request.inView .unread) s false =
      if s.kind = .special .recentlyRead then .always else isUnread := rfl
  simp only [hall, hunread]
  by_cases hread : s.kind = .special .recentlyRead
  · -- Recently read articles are not counted, and neither view leaves any of them out.
    have hcounted : s.isCounted (request.inView .adaptive).isCategory = false := by
      simp [Selection.isCounted, hread]
    have hadaptive : e.viewOf ctx (request.inView .adaptive) s false = .always := by
      simp only [viewOf, Request.inView] at hcounted ⊢
      simp [hstarred, hcounted]
    simp [hadaptive, hread]
  · have hcounted : s.isCounted request.isCategory = true := by
      unfold Selection.isCounted
      cases hkind : s.kind with
      | plugin id => exact absurd hkind (Selection.pluginFeed_eq_none.mp hplugin id)
      | special feed =>
        have hfeed : feed ≠ .recentlyRead := fun heq => hread (heq ▸ hkind)
        simp [hspecial feed hkind, hfeed]
      | _ => rfl
    simp only [if_neg hread]
    exact adaptive_rows h hs hstarred hcounted

theorem chosen_iff {α : Type} {chosen few whole : List α} {p q : Prop} [Decidable p] [Decidable q]
    (h : chosen = if few ≠ [] ∨ p ∧ q then few else whole) :
    chosen = (if few ≠ [] then few else whole) ↔ ¬(p ∧ q ∧ few = [] ∧ whole ≠ []) := by
  rw [h]
  by_cases hfew : few = []
  · by_cases hpq : p ∧ q
    · simp [hfew, hpq, eq_comm]
    · have hnot : ¬(p ∧ q ∧ few = [] ∧ whole ≠ []) := fun hcase => hpq ⟨hcase.1, hcase.2.1⟩
      rw [if_neg (by simp [hfew, hpq]), if_neg (by simp [hfew])]
      exact iff_of_true rfl hnot
  · simp [hfew]

/-- A listing in adaptive view is that of the unread rows if it has any, else that of all rows. It
is the former also where an unread row with a label of the owner is archived: such a row is counted,
and not listed. -/
theorem adaptive_listing (e : Engine) (ctx : Context) (request : Request) (s : Selection)
    (hreach : e.store.Reachable) (hsearch : searchText? request = none)
    (hstart : request.start = none) (hsince : request.sinceId = none)
    (hs : Selection.ofAddress? request.feed request.isCategory request.includeChildren ctx.prefs =
      some s) (hstarred : s.kind ≠ .special .starred) (hplugin : s.pluginFeed? = none)
    (hspecial : ∀ feed, s.kind = .special feed → request.isCategory = false) :
    (∃ f, ∀ mode offset, e.page ctx (request.inView mode) offset = .error f) ∨
      ∃ rows : ViewMode → List Headline,
        (∀ mode, e.Serves ctx (request.inView mode) (rows mode)) ∧
        rows .adaptive = (if rows .unread ≠ [] ∨ s.kind = .labels ∧ e.hiddenRows ctx s ≠ [] then
          rows .unread else rows .allArticles) ∧
        (rows .adaptive = (if rows .unread ≠ [] then rows .unread else rows .allArticles) ↔
          ¬(s.kind = .labels ∧ e.hiddenRows ctx s ≠ [] ∧ rows .unread = [] ∧
            rows .allArticles ≠ [])) := by
  have h := hreach.sound
  refine (serves_view hsearch hstart hsince h hs hplugin).imp_right fun hserves => ?_
  have hrule := adaptive_view_rows h hs hstarred hplugin hspecial
  exact ⟨_, hserves, hrule, chosen_iff hrule⟩

/-- Two articles with a label: an unread one that is in no feed, and one that has been read. -/
def labelledArticles : List Operation :=
  [.addLabel 1 "L", .addFeed ⟨1, "u", none, none, none, none, none⟩, archivedArticle,
   .assignLabel 1 1,
   .addArticle ⟨"r", "r", none, "", none, 0, ⟨1715342400, 0⟩, ⟨1715342400, 0⟩⟩
     ⟨1, some 1, false, false, false, none, none, none, none, "", ""⟩,
   .assignLabel 1 2]

def labelledEngine : Engine := ⟨Store.ofHistory labelledArticles, .none, .standard⟩

def labelledRows : Request := { Request.plain (.id (-2)) with isCategory := true }

/-- The unread article is counted, so the one that has been read is not shown. -/
theorem adaptive_listing_labels :
    searchText? labelledRows = none ∧ labelledRows.start = none ∧ labelledRows.sinceId = none ∧
    ∃ rows : ViewMode → List Headline,
      (∀ mode, labelledEngine.Serves archivedContext (labelledRows.inView mode) (rows mode)) ∧
      rows .adaptive = rows .unread := by
  refine ⟨rfl, rfl, rfl, ?_⟩
  rcases adaptive_listing labelledEngine archivedContext labelledRows
    (.ofReference .labels true false .standard) ⟨labelledArticles, rfl⟩ rfl rfl rfl rfl
    (by decide) rfl (by simp [Selection.ofReference_kind]) with ⟨f, hf⟩ | ⟨rows, hserves, hrule, -⟩
  · have hok : (labelledEngine.page archivedContext (labelledRows.inView .unread) 0).isOk := by
      decide +kernel
    rw [hf] at hok
    cases hok
  · have hhidden : labelledEngine.hiddenRows archivedContext
        (.ofReference .labels true false .standard) ≠ [] := by decide +kernel
    rw [if_pos (.inr ⟨rfl, hhidden⟩)] at hrule
    exact ⟨rows, hserves, hrule⟩

/-- So the adaptive view is empty there, though there is a row to be shown. -/
theorem adaptive_labels_empty :
    ¬∃ rows : ViewMode → List Headline,
      (∀ mode, labelledEngine.Serves archivedContext (labelledRows.inView mode) (rows mode)) ∧
      rows .adaptive = if rows .unread ≠ [] then rows .unread else rows .allArticles := by
  rintro ⟨rows, hserves, hrule⟩
  have hfirst (mode : ViewMode) : labelledEngine.page archivedContext (labelledRows.inView mode) 0 =
      .ok ((rows mode).take 30) := hserves mode 0
  have hadaptive : labelledEngine.page archivedContext (labelledRows.inView .adaptive) 0 =
      .ok [] := by decide +kernel
  have hunread : labelledEngine.page archivedContext (labelledRows.inView .unread) 0 =
      .ok [] := by decide +kernel
  have hall : ((labelledEngine.page archivedContext (labelledRows.inView .allArticles) 0).map
      List.length).toOption = some 1 := by decide +kernel
  rw [hfirst, Except.ok.injEq, List.take_eq_nil_iff] at hadaptive hunread
  have hadaptive : rows .adaptive = [] := by simpa using hadaptive
  have hunread : rows .unread = [] := by simpa using hunread
  rw [hadaptive, if_neg (by simp [hunread])] at hrule
  rw [hfirst, ← hrule] at hall
  cases hall

end Engine

end Newsfeed
