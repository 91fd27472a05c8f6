import Newsfeed.Proofs.Listing.Grouped
import Newsfeed.Proofs.Listing.Weeks

/-!
What stands between two rows of one feed where rows are gathered by feed. The feeds are told apart
by their titles only, so it may be a row of another feed that has the same title, and of no other.
-/

namespace Newsfeed

open Std

section Between

variable {α : Type} {cmp : α → α → Ordering} [TransCmp cmp] {xs : List α}

/-- What stands between two that compare equal in a sorted list compares equal to them. -/
theorem eq_of_between {a x b : α} (hsorted : xs.Pairwise fun x y => (cmp x y).isLE)
    (hbetween : [a, x, b].Sublist xs) (hab : cmp a b = .eq) : cmp a x = .eq := by
  obtain ⟨hfront, hrest⟩ := List.pairwise_cons.mp (hsorted.sublist hbetween)
  have hax := hfront x List.mem_cons_self
  have hxb := List.rel_of_pairwise_cons hrest List.mem_cons_self
  have hxa : (cmp x a).isLE := TransCmp.isLE_trans hxb (by simp [OrientedCmp.eq_symm hab])
  exact OrientedCmp.isLE_antisymm hax hxa

theorem three_of_map {β : Type} {f : α → β} {a x b : β} (h : [a, x, b].Sublist (xs.map f)) :
    ∃ a' x' b', [a', x', b'].Sublist xs ∧ f a' = a ∧ f x' = x ∧ f b' = b := by
  obtain ⟨ys, hys, hmap⟩ := List.sublist_map_iff.mp h
  match ys with
  | [a', x', b'] =>
    simp only [List.map_cons, List.map_nil, List.cons.injEq, and_true] at hmap
    exact ⟨a', x', b', hys, hmap.1.symm, hmap.2.1.symm, hmap.2.2.symm⟩
  | [] | [_] | [_, _] | _ :: _ :: _ :: _ :: _ => simp at hmap

end Between

/-- No row of another feed stands between two rows of the feed, as long as these are of one week if
the listing is by weeks. -/
def FeedTogether (weekly : Prop) (feed : Int) (rows : List Headline) : Prop :=
  ∀ a x b, [a, x, b].Sublist rows → a.feed = some feed → b.feed = some feed →
    (weekly → a.week? = b.week?) → x.feed = some feed

namespace Engine

variable {e : Engine} {ctx : Context} {request : Request} {s : Selection} {p : Plan}
  {rows : List Joined}

/-- The rows of a request are gathered by week. -/
def GathersWeeks (e : Engine) (request : Request) (s : Selection) : Prop :=
  ∃ d, ⟨.yearWeek, d⟩ ∈ e.gathering request s

/-- What the keys by which rows are gathered do not tell apart. -/
theorem gathering_eq (hkeys : e.gathering request s ≠ []) (content : Bool) (a b : Joined) :
    SortOrder.compareKeys a b (e.gathering request s) = .eq ↔
      (a.headline content).feedTitle = (b.headline content).feedTitle ∧
        (e.GathersWeeks request s → (a.headline content).week? = (b.headline content).week?) := by
  have htitle : a.sortCell .feedTitle = b.sortCell .feedTitle ↔
      (a.headline content).feedTitle = (b.headline content).feedTitle := Cell.ofText_inj
  have hweek : a.sortCell .yearWeek = b.sortCell .yearWeek ↔
      (a.headline content).week? = (b.headline content).week? :=
    Cell.ofText_inj.trans (a.yearWeek_eq_iff b content)
  rw [SortOrder.compareKeys_eq]
  unfold GathersWeeks gathering at *
  rcases s.gathering_cases request.orderBy (e.plugins.orderFor? request.orderBy) with
    hnone | htitles | ⟨d, hweeks⟩
  · exact absurd hnone hkeys
  · simp [htitles, htitle]
  · simp [hweeks, htitle, hweek, and_comm]

theorem Pages.gathered (hpages : e.Pages ctx request s p rows) (hgroup : ctx.prefs.groupByFeed) :
    rows.Pairwise fun a b => (SortOrder.compareKeys a b (e.gathering request s)).isLE := by
  have hprefs : { ctx.prefs with groupByFeed := true } = ctx.prefs := by rw [← hgroup]
  have horder := s.orderFor_grouping request.orderBy ctx.prefs
    (e.plugins.orderFor? request.orderBy) true
  rw [hprefs, if_pos rfl] at horder
  have hsorted := hpages.sorted
  rw [horder] at hsorted
  refine hsorted.imp fun hab => SortOrder.isLE_of_gather (o := e.baseOrder request s) fun hgt => ?_
  cases hab.symm.trans hgt

/-- Where rows are gathered by feed, all that stands between two rows of one title is of that title
too, and of their week if the rows are gathered by week. All rows of a feed have its title. So no
row of another feed stands between two rows of a feed, unless rows with its title are listed that
are not of the feed. -/
theorem feeds_stand_together_by_title (e : Engine) (ctx : Context) (request : Request)
    (s : Selection) (p : Plan) (rows : List Joined) (hgroup : ctx.prefs.groupByFeed)
    (hpages : e.Pages ctx request s p rows) (hkeys : e.gathering request s ≠ []) :
    let listed := rows.map fun r => r.headline request.includeContent
    let weekly := e.GathersWeeks request s
    (∀ a x b, [a, x, b].Sublist listed → a.feedTitle = b.feedTitle →
      (weekly → a.week? = b.week?) → x.feedTitle = a.feedTitle ∧ (weekly → x.week? = a.week?)) ∧
    (∀ a ∈ listed, ∀ b ∈ listed, a.feed = b.feed → a.feedTitle = b.feedTitle) ∧
    ∀ feed, (∀ a ∈ listed, ∀ b ∈ listed, a.feed = some feed → b.feedTitle = a.feedTitle →
      b.feed = some feed) → FeedTogether weekly feed listed := by
  intro listed weekly
  have hbetween : ∀ a x b, [a, x, b].Sublist listed → a.feedTitle = b.feedTitle →
      (weekly → a.week? = b.week?) →
        x.feedTitle = a.feedTitle ∧ (weekly → x.week? = a.week?) := by
    intro a x b hlisted htitle hweek
    obtain ⟨a, x, b, hrows, rfl, rfl, rfl⟩ := three_of_map hlisted
    have hab := (gathering_eq hkeys request.includeContent a b).mpr ⟨htitle, hweek⟩
    have hax := eq_of_between (hpages.gathered hgroup) hrows hab
    obtain ⟨htitles, hweeks⟩ := (gathering_eq hkeys request.includeContent a x).mp hax
    exact ⟨htitles.symm, fun h => (hweeks h).symm⟩
  have htitles : ∀ a ∈ listed, ∀ b ∈ listed, a.feed = b.feed → a.feedTitle = b.feedTitle := by
    intro a ha b hb hfeed
    obtain ⟨r, hr, rfl⟩ := List.mem_map.mp ha
    obtain ⟨r', hr', rfl⟩ := List.mem_map.mp hb
    have hrow := ((hpages.matching r).mp hr).row
    have hrow' := ((hpages.matching r').mp hr').row
    exact congrArg (Option.bind · Feed.title) (hrow.feed_congr hrow' hfeed)
  refine ⟨hbetween, htitles, ?_⟩
  intro feed hone a x b hlisted ha hb hweek
  have hmem : a ∈ listed ∧ x ∈ listed ∧ b ∈ listed :=
    ⟨hlisted.subset (by simp), hlisted.subset (by simp), hlisted.subset (by simp)⟩
  have htitle := htitles a hmem.1 b hmem.2.2 (ha.trans hb.symm)
  exact hone a hmem.1 x hmem.2.1 ha (hbetween a x b hlisted htitle hweek).1

/-- The selection of all articles. -/
def allArticlesOf : Selection := .ofReference (.special .all) false false .standard

def byWeekAndFeed : List SortKey := [⟨.yearWeek, .desc⟩, ⟨.feedTitle, .asc⟩]

theorem pages_gathered (store : Store) (h : Store.Sound store) :
    ∃ p, Pages ⟨store, .none, .standard⟩ (twinContext.grouping true) allOneByOne allArticlesOf p
      ((SortOrder.standard.gather byWeekAndFeed).sort (store.matching 1 true .always)) := by
  have hselected : Selection.ofAddress? allOneByOne.feed allOneByOne.isCategory
      allOneByOne.includeChildren (twinContext.grouping true).prefs = some allArticlesOf := rfl
  have hplan := (plan_ok_iff (e := ⟨store, .none, .standard⟩) h rfl hselected rfl).mpr
    ⟨_, none, rfl, rfl, rfl⟩
  exact ⟨_, pages_of_plan h hselected rfl hplan⟩

/-- Rows of two feeds with two titles come to stand apart from each other. -/
theorem two_feeds_stand_together :
    (twinContext.grouping true).prefs.groupByFeed ∧
      feedsEngine.gathering allOneByOne allArticlesOf ≠ [] ∧
      ∃ p rows, feedsEngine.Pages (twinContext.grouping true) allOneByOne allArticlesOf p rows ∧
        (rows.map fun r => r.copy.feed).Perm [some 1, some 2, some 1] ∧
        FeedTogether (feedsEngine.GathersWeeks allOneByOne allArticlesOf) 1
          (rows.map fun r => r.headline false) := by
  have hreach : feedsEngine.store.Reachable := ⟨_, rfl⟩
  have hkeys : feedsEngine.gathering allOneByOne allArticlesOf ≠ [] := by decide
  obtain ⟨p, hpages⟩ := pages_gathered feedsEngine.store hreach.sound
  obtain ⟨-, -, htogether⟩ :=
    feeds_stand_together_by_title feedsEngine _ _ _ _ _ rfl hpages hkeys
  have hperm := (SortOrder.standard.gather byWeekAndFeed).sort_perm
    (feedsEngine.store.matching 1 true .always)
  refine ⟨rfl, hkeys, p, _, hpages, ?_, htogether 1 ?_⟩
  · exact (hperm.map _).trans (by decide +kernel)
  · have hone : ∀ a ∈ feedsEngine.store.matching 1 true .always,
        ∀ b ∈ feedsEngine.store.matching 1 true .always, a.copy.feed = some 1 →
          b.feed.bind Feed.title = a.feed.bind Feed.title → b.copy.feed = some 1 := by
      decide +kernel
    intro a ha b hb
    obtain ⟨r, hr, rfl⟩ := List.mem_map.mp ha
    obtain ⟨r', hr', rfl⟩ := List.mem_map.mp hb
    exact hone r (hperm.mem_iff.mp hr) r' (hperm.mem_iff.mp hr')

/-- Two feeds of one title, and three articles that arrived at one time: the second one is in the
other feed. -/
def namesakes : Store := Store.ofHistory
  [.addFeed ⟨1, "one", some "news", none, none, none, none⟩,
    .addFeed ⟨1, "two", some "news", none, none, none, none⟩,
    .arrival 1 (some 1) "a" 1715342400, .arrival 1 (some 2) "b" 1715342400,
    .arrival 1 (some 1) "c" 1715342400]

def namesakesEngine : Engine := ⟨namesakes, .none, .standard⟩

/-- A row of the other feed stands between the rows of the first. -/
theorem namesakes_not_together :
    namesakesEngine.store.Reachable ∧ (twinContext.grouping true).prefs.groupByFeed ∧
      namesakesEngine.gathering allOneByOne allArticlesOf ≠ [] ∧
      ∃ p rows, namesakesEngine.Pages (twinContext.grouping true) allOneByOne allArticlesOf p rows ∧
        ¬FeedTogether (namesakesEngine.GathersWeeks allOneByOne allArticlesOf) 1
          (rows.map fun r => r.headline false) := by
  have hreach : namesakesEngine.store.Reachable := ⟨_, rfl⟩
  obtain ⟨p, hpages⟩ := pages_gathered namesakes hreach.sound
  have hsorted : (SortOrder.standard.gather byWeekAndFeed).sort
      (namesakes.matching 1 true .always) = (namesakes.matching 1 true .always).reverse :=
    SortOrder.sort_eq_of_strict _ (Store.matching_distinct hreach.sound _ _ _)
      (List.reverse_perm _).symm (by decide +kernel)
  rw [hsorted] at hpages
  refine ⟨hreach, rfl, by decide, p, _, hpages, fun htogether => ?_⟩
  have hrows : [(some 1, some 19849), (some 2, some 19849), (some 1, some 19849)].Sublist
      (((namesakes.matching 1 true .always).reverse.map fun r => r.headline false).map fun h =>
        (h.feed, h.week?)) := by
    decide +kernel
  obtain ⟨c, b, a, hlisted, hc, hb, ha⟩ := three_of_map hrows
  obtain ⟨hfeed, hweek⟩ := Prod.mk.inj hc
  obtain ⟨hfeed', hweek'⟩ := Prod.mk.inj ha
  have hother := htogether c b a hlisted hfeed hfeed' fun _ => hweek.trans hweek'.symm
  cases hother.symm.trans (Prod.mk.inj hb).1

end Engine

end Newsfeed
