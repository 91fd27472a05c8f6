import Newsfeed.Proofs.Counters.Overview

/-!
The numbers of the special feeds in an overview against those that are counted one at a time. They
are the same, save that the fresh articles have archived ones among them only where they are counted
by themselves.
-/

namespace Newsfeed

open Predicate Time

/-- The row is an unread one of a special feed. Those that are fresh were entered after a time, by
stored text. -/
def SpecialFeed.counts (since : String) (r : Joined) : SpecialFeed → Bool
  | starred => r.copy.marked && r.copy.unread
  | published => r.copy.published && r.copy.unread
  | fresh => r.copy.unread && decide (0 ≤ r.article.score) &&
      compare r.article.dateEntered since == .gt
  | all => r.copy.unread
  | archived => r.copy.feed.isNone && r.copy.unread
  | recentlyRead => false

theorem Selection.ofAddress_special (feed : SpecialFeed) (prefs : Preferences) :
    ofAddress? (.id feed.id) false false prefs =
      some (ofReference (.special feed) false false prefs) := by
  cases feed <;> rfl

theorem specialCounts_eq (counters : List FeedCounter) : specialCounts counters =
    [(-6, 0), (-4, FeedCounter.sumOf FeedCounter.unread counters),
     (-3, FeedCounter.sumOf FeedCounter.freshUnread (FeedCounter.live counters)),
     (-2, FeedCounter.sumOf FeedCounter.publishedUnread counters),
     (-1, FeedCounter.sumOf FeedCounter.markedUnread counters),
     (0, FeedCounter.sumOf FeedCounter.unread (counters.filter fun c => c.feed.isNone))] := rfl

namespace Store

variable {s : Store} {owner : Int} {since : Instant}

/-- The number of a special feed in an overview is that of its unread rows, among the fresh ones of
those that are not archived. -/
theorem lookup_special (feed : SpecialFeed) :
    (specialCounts (s.feedCounters owner since)).lookup feed.id = some (s.countRows owner fun r =>
      (decide (feed ≠ .fresh) || r.copy.feed.isSome) && feed.counts since.storedText r) := by
  rw [specialCounts_eq]
  cases feed with
  | starred => exact congrArg some (sumOf_counters (counts_of_group fun _ => rfl))
  | published => exact congrArg some (sumOf_counters (counts_of_group fun _ => rfl))
  | fresh => exact congrArg some (sumOf_live (counts_of_group fun _ => rfl))
  | all => exact congrArg some (sumOf_counters (s.counts_unread owner since))
  | archived =>
    exact congrArg some
      (sumOf_filter (s.counts_unread owner since) (fun c => c.feed.isNone) fun _ _ => rfl)
  | recentlyRead => exact congrArg some (countRows_eq_zero fun _ _ => rfl).symm

end Store

namespace Engine

variable {e : Engine} {ctx : Context}

/-- Where the fresh articles begin. -/
def freshSince (ctx : Context) : String :=
  (hoursBefore ctx.now ctx.prefs.freshHours).storedText

/-- The number that an overview has for a special feed. -/
def specialNumber (e : Engine) (ctx : Context) (feed : SpecialFeed) : Int :=
  e.store.countRows ctx.owner fun r =>
    (decide (feed ≠ .fresh) || r.copy.feed.isSome) && feed.counts (freshSince ctx) r

/-- The owner's archived copies that are fresh. -/
def archivedFresh (e : Engine) (ctx : Context) : List Joined :=
  (e.store.ownRows ctx.owner).filter fun r =>
    r.copy.feed.isNone && SpecialFeed.fresh.counts (freshSince ctx) r

theorem admits_special {r : Joined} {feed : SpecialFeed} (hfeed : feed ≠ .recentlyRead) :
    (Predicate.all [feed.filter e.limits ctx ctx.prefs.freshHours, isUnread]).admits
        (e.store.facts r) ↔ feed.counts (freshSince ctx) r := by
  rw [admits_all]
  simp only [List.all_cons, List.all_nil, Bool.and_true, Bool.and_eq_true]
  rw [Store.admits_unread]
  cases feed with
  | starred =>
    rw [SpecialFeed.filter, admits_switch rfl true, SpecialFeed.counts, Bool.and_eq_true]
  | published =>
    rw [SpecialFeed.filter, admits_switch rfl true, SpecialFeed.counts, Bool.and_eq_true]
  | fresh =>
    rw [fresh_iff, SpecialFeed.counts, TimeOrder.byText, freshSince]
    simp only [Bool.and_eq_true, decide_eq_true_eq, beq_iff_eq]
    tauto
  | all => simp [SpecialFeed.filter, admits_always, SpecialFeed.counts]
  | archived =>
    have hcell : (e.store.facts r).cell .feedId = Cell.ofInt? r.copy.feed := rfl
    rw [SpecialFeed.filter, admits_isNull, hcell, Cell.ofInt_null, SpecialFeed.counts]
    simp
  | recentlyRead => exact absurd rfl hfeed

/-- Counted by itself, a special feed has the number of its unread rows, archived ones too. -/
theorem count_special (h : Store.Sound e.store) (hclear : ctx.token.tripped = false)
    (feed : SpecialFeed) :
    e.count ctx (.id feed.id) false true =
      .ok (e.store.countRows ctx.owner (feed.counts (freshSince ctx) ·)) := by
  have hfilter : (Selection.ofReference (.special feed) false false ctx.prefs).filter ctx e.limits
      none = feed.filter e.limits ctx ctx.prefs.freshHours := by
    cases feed <;> rfl
  simp only [count, Selection.ofAddress_special]
  by_cases hfeed : feed = .recentlyRead
  · subst hfeed
    rw [countSelection_special hclear rfl rfl]
    exact congrArg Except.ok (Store.countRows_eq_zero fun _ _ => rfl).symm
  · have hcounted : (Selection.ofReference (.special feed) false false ctx.prefs).isCounted
        false := by
      simpa [Selection.isCounted, Selection.ofReference_kind] using hfeed
    have harchived : (Reference.special feed).countsArchived = true := rfl
    rw [countSelection_counted h hclear hcounted, unreadRows, Selection.ofReference_kind, hfilter,
      harchived, Store.matching_count h]
    refine congrArg Except.ok (Store.countRows_congr h fun r _ => ?_)
    rw [Bool.true_or, Bool.true_and, admits_special hfeed]

/-- The rows of a special feed are those that an overview counts and the archived fresh ones. -/
theorem countRows_special (feed : SpecialFeed) :
    e.store.countRows ctx.owner (feed.counts (freshSince ctx) ·) = e.specialNumber ctx feed +
      ((if feed = .fresh then e.archivedFresh ctx else []).length : Int) := by
  unfold specialNumber
  by_cases hfeed : feed = .fresh
  · subst hfeed
    rw [Store.countRows_split, if_pos rfl, archivedFresh, ← List.countP_eq_length_filter]
    rfl
  · simp [hfeed]

/-- Every special feed has one unread number, in an overview and by itself, save the fresh articles:
counted by themselves they have the owner's archived ones among them, and an overview leaves these
out. -/
theorem special_numbers (e : Engine) (ctx : Context) (hreach : e.store.Reachable) :
    (ctx.token.tripped = true ∧ e.snapshot ctx = .error .cancelled ∧
      ∀ feed : SpecialFeed, e.count ctx (.id feed.id) false true = .error .cancelled) ∨
    ∃ snap, e.snapshot ctx = .ok snap ∧ ∀ feed : SpecialFeed,
      ∃ n, snap.virtualFeeds.lookup feed.id = some n ∧
        e.count ctx (.id feed.id) false true =
          .ok (n + ((if feed = .fresh then e.archivedFresh ctx else []).length : Int)) ∧
        (e.count ctx (.id feed.id) false true = .ok n ↔
          (feed = .fresh → e.archivedFresh ctx = [])) := by
  have h := hreach.sound
  rcases Bool.eq_false_or_eq_true ctx.token.tripped with htripped | hclear
  · refine .inl ⟨htripped, snapshot_tripped htripped, fun feed => ?_⟩
    simp only [count, Selection.ofAddress_special, countSelection, htripped, if_true]
  · refine .inr ⟨e.overview ctx, snapshot_eq hclear, fun feed => ?_⟩
    have hnumber : (e.overview ctx).virtualFeeds.lookup feed.id =
        some (e.specialNumber ctx feed) := Store.lookup_special feed
    have hcount := count_special h hclear feed
    rw [countRows_special] at hcount
    refine ⟨e.specialNumber ctx feed, hnumber, hcount, ?_⟩
    rw [hcount, Except.ok.injEq, ← List.length_eq_zero_iff]
    by_cases hfeed : feed = .fresh
    · simp [hfeed]
    · simp [hfeed]

/-- The archived article has one number among all articles, and two among the fresh ones. -/
theorem special_numbers_archived : archivedEngine.store.Reachable ∧
    ∃ snap fresh all, archivedEngine.snapshot archivedContext = .ok snap ∧
      snap.virtualFeeds.lookup SpecialFeed.fresh.id = some fresh ∧
      archivedEngine.count archivedContext (.id SpecialFeed.fresh.id) false true =
        .ok (fresh + 1) ∧
      snap.virtualFeeds.lookup SpecialFeed.all.id = some all ∧
      archivedEngine.count archivedContext (.id SpecialFeed.all.id) false true = .ok all := by
  have hreach : archivedEngine.store.Reachable := ⟨[archivedArticle], rfl⟩
  refine ⟨hreach, ?_⟩
  rcases special_numbers archivedEngine archivedContext hreach with
    ⟨htripped, -⟩ | ⟨snap, hsnap, hnumbers⟩
  · cases htripped
  · obtain ⟨fresh, hfresh, hcount, -⟩ := hnumbers .fresh
    obtain ⟨all, hall, -, hsame⟩ := hnumbers .all
    have hone : (archivedEngine.archivedFresh archivedContext).length = 1 := by decide +kernel
    rw [if_pos rfl, hone] at hcount
    exact ⟨snap, fresh, all, hsnap, hfresh, hcount, hall, hsame.mpr (by decide)⟩

/-- So the fresh articles may have two numbers. -/
theorem fresh_numbers_differ :
    ¬∃ snap n, archivedEngine.snapshot archivedContext = .ok snap ∧
      snap.virtualFeeds.lookup SpecialFeed.fresh.id = some n ∧
      archivedEngine.count archivedContext (.id SpecialFeed.fresh.id) false true = .ok n := by
  rintro ⟨snap, n, hsnap, hnumber, hcount⟩
  have hone : archivedEngine.count archivedContext (.id SpecialFeed.fresh.id) false true =
      .ok 1 := by decide +kernel
  have hzero : (archivedEngine.snapshot archivedContext).map
      (fun snap => snap.virtualFeeds.lookup SpecialFeed.fresh.id) = .ok (some 0) := by
    decide +kernel
  rw [hsnap, Except.map, hnumber] at hzero
  rw [hone] at hcount
  cases hcount
  cases hzero

end Engine

end Newsfeed
