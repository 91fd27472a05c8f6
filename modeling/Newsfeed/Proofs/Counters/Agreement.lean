import Newsfeed.Proofs.Listing.Columns
import Newsfeed.Proofs.Listing.Serving

/-!
The number beside a reference against the length of its unread listing. Both go over the same rows,
save that the number of the fresh articles and that of the labels cover archived copies, which their
listings leave out.
-/

namespace Newsfeed

open Predicate

namespace Store

variable {s : Store}

theorem matching_live (h : Sound s) (owner : Int) (filter : Predicate) :
    (s.matching owner false filter).Perm
      ((s.matching owner true filter).filter fun r => r.copy.feed.isSome) := by
  have hnodup (archived : Bool) : (s.matching owner archived filter).Nodup :=
    (matching_copies h owner archived filter).of_map
  refine (List.perm_ext_iff_of_nodup (hnodup false) ((hnodup true).filter _)).mpr fun r => ?_
  rw [mem_matching h, List.mem_filter, mem_matching h]
  constructor
  · rintro ⟨hrow, hkept, howner, hadmits⟩
    have hlive : r.copy.feed ≠ none := by simpa using hkept
    exact ⟨⟨hrow, .inr rfl, howner, hadmits⟩, Option.isSome_iff_ne_none.mpr hlive⟩
  · rintro ⟨⟨hrow, -, howner, hadmits⟩, hlive⟩
    exact ⟨hrow, .inl (Option.isSome_iff_ne_none.mp hlive), howner, hadmits⟩

theorem matching_length (h : Sound s) (owner : Int) (filter : Predicate) :
    (s.matching owner true filter).length = (s.matching owner false filter).length +
      (s.matching owner true filter).countP fun r => r.copy.feed.isNone := by
  rw [List.length_eq_countP_add_countP (fun r => r.copy.feed.isSome),
    (matching_live h owner filter).length_eq, List.countP_eq_length_filter]
  congr 2
  funext r
  cases r.copy.feed <;> rfl

end Store

/-- A request for the unread rows of a reference and nothing else, in any order and from any row
on. -/
structure Request.ListsUnread (r : Request) : Prop where
  viewMode : r.viewMode = .unread
  includeChildren : r.includeChildren = false
  search : r.search = none
  start : r.start = none
  sinceId : r.sinceId = none

namespace Engine

variable {e : Engine} {ctx : Context} {request : Request} {s : Selection}

/-- The archived copies that the number of a selection covers and its listing leaves out. -/
def hiddenRows (e : Engine) (ctx : Context) (s : Selection) : List Joined :=
  if s.kind = .special .fresh ∨ s.kind = .labels then
    (e.unreadRows ctx s.kind (s.filter ctx e.limits none)).filter fun r => r.copy.feed.isNone
  else []

theorem feed_isSome_of_admits {r : Joined} {store : Store} {id : Int}
    (h : (Predicate.all [.compare .feedId .eq (.int id), isUnread]).admits (store.facts r)) :
    r.copy.feed.isSome := by
  rw [admits_all] at h
  simp only [List.all_cons, Bool.and_eq_true] at h
  rw [Store.admits_feed] at h
  rw [h.1]
  rfl

/-- Every row that is counted is listed or hidden. -/
theorem unreadRows_length (h : Store.Sound e.store)
    (hs : Selection.ofAddress? request.feed request.isCategory request.includeChildren ctx.prefs =
      some s) (hcounted : s.isCounted request.isCategory) :
    (e.unreadRows ctx s.kind (s.filter ctx e.limits none)).length =
      (e.store.matching ctx.owner s.allowArchived
        (Predicate.all [s.filter ctx e.limits none, isUnread])).length +
      (e.hiddenRows ctx s).length := by
  have hs := (Selection.kind_of_address hs).2
  have hsplit := Store.matching_length h ctx.owner
    (Predicate.all [s.filter ctx e.limits none, isUnread])
  unfold unreadRows hiddenRows
  cases hkind : s.kind with
  | feed id =>
    have hallow : s.allowArchived = false := by rw [hs, hkind]; rfl
    have hown : s.filter ctx e.limits none = .compare .feedId .eq (.int id) := by
      rw [Selection.filter, hkind]
    have hlive : (e.store.matching ctx.owner true
        (Predicate.all [s.filter ctx e.limits none, isUnread])).countP
        (fun r => r.copy.feed.isNone) = 0 := by
      rw [List.countP_eq_zero]
      intro r hr
      have hadmits := ((Store.mem_matching h).mp hr).admits
      rw [hown] at hadmits
      simpa [Option.isSome_iff_ne_none] using feed_isSome_of_admits hadmits
    rw [hallow, if_neg (by simp)]
    simpa [Reference.countsArchived, hlive] using hsplit
  | plugin id => simp [Selection.isCounted, hkind] at hcounted
  | labels =>
    have hallow : s.allowArchived = false := by rw [hs, hkind]; rfl
    rw [hallow, if_pos (by simp), ← List.countP_eq_length_filter]
    unfold unreadRows
    simpa [Reference.countsArchived] using hsplit
  | special feed =>
    cases feed with
    | fresh =>
      have hallow : s.allowArchived = false := by rw [hs, hkind]; rfl
      rw [hallow, if_pos (by simp), ← List.countP_eq_length_filter]
      unfold unreadRows
      simpa [Reference.countsArchived] using hsplit
    | _ =>
      have hallow : s.allowArchived = true := by rw [hs, hkind]; rfl
      rw [hallow, if_neg (by simp)]
      simp [Reference.countsArchived]
  | category id =>
    have hallow : s.allowArchived = false := by rw [hs, hkind]; rfl
    rw [hallow, if_neg (by simp)]
    simp [Reference.countsArchived]
  | uncategorized =>
    have hallow : s.allowArchived = false := by rw [hs, hkind]; rfl
    rw [hallow, if_neg (by simp)]
    simp [Reference.countsArchived]
  | _ =>
    have hallow : s.allowArchived = true := by rw [hs, hkind]; rfl
    rw [hallow, if_neg (by simp)]
    simp [Reference.countsArchived]

theorem matching_congr {store : Store} (owner : Int) (archived : Bool) {p q : Predicate}
    (h : ∀ row, p.admits row = q.admits row) :
    store.matching owner archived p = store.matching owner archived q := by
  simp only [Store.matching, h]

theorem admits_unread (hr : request.ListsUnread)
    (hs : Selection.ofAddress? request.feed request.isCategory request.includeChildren ctx.prefs =
      some s) (hcounted : s.isCounted request.isCategory) (heading : Heading) (row : Facts) :
    (e.planFor ctx request s heading none).query.filter.admits row =
      (Predicate.all [s.filter ctx e.limits none, isUnread]).admits row := by
  have hforest : e.forestOf ctx s = none := by
    have hkind := (Selection.kind_of_address hs).2
    rw [hr.includeChildren] at hkind
    unfold forestOf
    cases hcase : s.kind with
    | category id =>
      rw [hcase] at hkind
      simp [hkind, Selection.ofReference, Selection.plain]
    | _ => rfl
  have hview : e.viewOf ctx request s false = isUnread := by
    have hread : s.kind ≠ .special .recentlyRead := by
      intro hkind
      simp [Selection.isCounted, hkind] at hcounted
    simp only [viewOf, hr.viewMode, ViewMode.filter, if_neg hread]
  change (Predicate.all (.always :: e.otherFilters ctx request s false)).admits row = _
  simp [admits_all, otherFilters, hr.start, hr.sinceId, hview, ownFilter, hforest,
    admits_always, Bool.and_comm]

/-- The number of unread rows of a reference is the length of its unread listing and of what the
listing leaves out: archived copies, where the fresh articles or all labelled ones are asked for.
So the two agree everywhere else, and there as long as no such copy is unread. -/
theorem count_eq_listing (e : Engine) (ctx : Context) (request : Request) (s : Selection)
    (hreach : e.store.Reachable) (hr : request.ListsUnread)
    (hs : Selection.ofAddress? request.feed request.isCategory false ctx.prefs = some s)
    (hcounted : s.isCounted request.isCategory)
    (haccepted : (e.headlines ctx request).isOk) :
    0 < e.pageSize request ∧ ∃ rows : List Headline,
      (∀ offset, e.page ctx request offset =
        .ok (slice (e.pageSize request) offset.toNat rows)) ∧
      e.count ctx request.feed request.isCategory true =
        .ok ((rows.length + (e.hiddenRows ctx s).length : Nat) : Int) ∧
      (e.count ctx request.feed request.isCategory true = .ok (rows.length : Int) ↔
        e.hiddenRows ctx s = []) := by
  have h := hreach.sound
  have hs' : Selection.ofAddress? request.feed request.isCategory request.includeChildren
      ctx.prefs = some s := by rw [hr.includeChildren]; exact hs
  have hplugin : s.pluginFeed? = none := by
    rw [Selection.pluginFeed_eq_none]
    intro id hkind
    simp [Selection.isCounted, hkind] at hcounted
  obtain ⟨answer, hanswer⟩ : ∃ answer, e.headlines ctx request = .ok answer := by
    cases ha : e.headlines ctx request with
    | error f => rw [ha] at haccepted; cases haccepted
    | ok answer => exact ⟨answer, rfl⟩
  obtain ⟨hclear, p, hplan, -⟩ := plan_of_headlines hs' hplugin hanswer
  obtain ⟨heading, search, hheading, hsearch, hp⟩ := (plan_ok_iff h hclear hs' hplugin).mp hplan
  obtain rfl : search = none := by
    simpa [searchFor, searchText?, hr.search, eq_comm] using hsearch
  have hmatching : e.store.matching ctx.owner s.allowArchived p.query.filter =
      e.store.matching ctx.owner s.allowArchived
        (Predicate.all [s.filter ctx e.limits none, isUnread]) := by
    rw [hp]
    exact matching_congr _ _ (admits_unread hr hs' hcounted heading)
  have hrows : (p.rows e.store).length + (e.hiddenRows ctx s).length =
      (e.unreadRows ctx s.kind (s.filter ctx e.limits none)).length := by
    rw [unreadRows_length h hs' hcounted, ← hmatching, Plan.rows,
      (SortOrder.sort_perm _ _).length_eq]
    rw [hp]
    rfl
  have hcount : e.count ctx request.feed request.isCategory true =
      .ok (((p.rows e.store).length + (e.hiddenRows ctx s).length : Nat) : Int) := by
    rw [hrows]
    simp only [count, hs]
    exact countSelection_counted h hclear hcounted
  have hw := e.planFor_within ctx request s heading
  rw [← hp] at hw
  refine ⟨e.pageSize_pos request,
    (p.rows e.store).map fun r => r.headline request.includeContent,
    fun offset => page_of_within h hclear hs' hplugin hplan hw offset, ?_, ?_⟩
  · rw [List.length_map]
    exact hcount
  · rw [List.length_map, hcount, Except.ok.injEq, ← List.length_eq_zero_iff]
    omega

/-- An unread article that is in no feed. -/
def archivedArticle : Operation :=
  .addArticle ⟨"g", "t", none, "", none, 0, ⟨1715342400, 0⟩, ⟨1715342400, 0⟩⟩
    ⟨1, none, true, false, false, none, none, none, none, "", ""⟩

def archivedEngine : Engine := ⟨Store.ofHistory [archivedArticle], .none, .standard⟩

def archivedContext : Context := ⟨1, .standard, ⟨1715342400, 0⟩, .clear⟩

def unreadFresh : Request := { Request.plain (.id (-3)) with viewMode := .unread }

/-- The archived article is counted and not listed. -/
theorem count_eq_listing_fresh :
    (archivedEngine.headlines archivedContext unreadFresh).isOk ∧
    ∃ rows : List Headline,
      (∀ offset, archivedEngine.page archivedContext unreadFresh offset =
        .ok (slice (archivedEngine.pageSize unreadFresh) offset.toNat rows)) ∧
      archivedEngine.count archivedContext (.id (-3)) false true =
        .ok ((rows.length + 1 : Nat) : Int) := by
  have haccepted : (archivedEngine.headlines archivedContext unreadFresh).isOk := by decide +kernel
  obtain ⟨-, rows, hpages, hcount, -⟩ := count_eq_listing archivedEngine archivedContext unreadFresh
    (.ofReference (.special .fresh) false false .standard) ⟨[archivedArticle], rfl⟩
    ⟨rfl, rfl, rfl, rfl, rfl⟩ rfl (by decide) haccepted
  have hhidden : (archivedEngine.hiddenRows archivedContext
      (.ofReference (.special .fresh) false false .standard)).length = 1 := by decide +kernel
  rw [hhidden] at hcount
  exact ⟨haccepted, rows, hpages, hcount⟩

/-- So the number of the fresh articles is not always the length of their unread listing. -/
theorem count_ne_fresh_listing :
    ¬∃ rows : List Headline,
      (∀ offset, archivedEngine.page archivedContext unreadFresh offset =
        .ok (slice (archivedEngine.pageSize unreadFresh) offset.toNat rows)) ∧
      archivedEngine.count archivedContext (.id (-3)) false true = .ok (rows.length : Int) := by
  rintro ⟨rows, hpages, hcount⟩
  have hfirst : archivedEngine.page archivedContext unreadFresh 0 = .ok [] := by decide +kernel
  have hone : archivedEngine.count archivedContext (.id (-3)) false true = .ok 1 := by
    decide +kernel
  have hsize : archivedEngine.pageSize unreadFresh = 30 := by decide
  rw [hpages 0, hsize] at hfirst
  rw [hone] at hcount
  have hrows : rows = [] := by simpa [slice] using hfirst
  simp [hrows] at hcount

end Engine

end Newsfeed
