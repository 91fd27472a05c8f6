import Newsfeed.Counters.Snapshot
import Newsfeed.Proofs.Listing.Outcome
import Newsfeed.Proofs.Listing.Pages
import Newsfeed.Proofs.Search.Items
import Newsfeed.Proofs.Store.Alike

/-!
What an owner is answered does not depend on the rows of other owners, as long as the store does not
come upon a text that is too long for it.
-/

namespace Newsfeed

open Predicate Text

namespace Engine

variable {e : Engine} {ctx : Context} {t : Store} (h : Store.Apart ctx.owner e.store t)
  {request : Request} {s : Selection}

section Parts

include h

theorem describe_apart (isCategory : Bool) :
    (e.onStore t).describe ctx s isCategory = e.describe ctx s isCategory := by
  unfold describe
  simp only [reads, onStore, Store.under, GuardedStore.feed?, GuardedStore.category?,
    GuardedStore.label?, h.feed_same, h.category_same, h.label_same]

theorem labelLookup_apart : (e.onStore t).labelLookup ctx = e.labelLookup ctx := by
  funext caption
  simp only [labelLookup, reads, onStore, Store.under, GuardedStore.findLabel?, h.findLabel_same]

theorem searchMeaning_apart : (e.onStore t).searchMeaning ctx request =
    e.searchMeaning ctx request := by
  simp only [searchMeaning, meaningOf, labelLookup_apart h]
  rfl

theorem forestOf_apart : (e.onStore t).forestOf ctx s = e.forestOf ctx s := by
  simp only [forestOf, onStore, h.categories_same]

theorem ownFilter_apart : (e.onStore t).ownFilter ctx s = e.ownFilter ctx s := by
  simp only [ownFilter, forestOf_apart h]
  rfl

theorem viewOf_apart (hown : Each (About e.store ctx.owner) (e.ownFilter ctx s))
    (searching : Bool) :
    (e.onStore t).viewOf ctx request s searching = e.viewOf ctx request s searching := by
  have hunread : Each (About e.store ctx.owner) (Predicate.all [e.ownFilter ctx s, isUnread]) := by
    refine each_about_all fun p hp => ?_
    simp only [List.mem_cons, List.not_mem_nil, or_false] at hp
    rcases hp with rfl | rfl
    · exact hown
    · exact each_about trivial
  simp only [viewOf, unreadRows, ownFilter_apart h, h.matching_same hunread]
  rfl

theorem planFor_apart (hown : Each (About e.store ctx.owner) (e.ownFilter ctx s))
    (heading : Heading) (search : Option CompiledSearch) :
    (e.onStore t).planFor ctx request s heading search =
      e.planFor ctx request s heading search := by
  simp only [planFor, viewOf_apart h hown, ownFilter_apart h]
  rfl

end Parts

section Filters

theorem special_about (limits : Limits) (freshHours : Int) (feed : SpecialFeed) :
    Each (About e.store ctx.owner) (feed.filter limits ctx freshHours) := by
  cases feed with
  | fresh =>
    rw [SpecialFeed.filter]
    refine each_about_all fun p hp => ?_
    simp only [List.mem_cons, List.not_mem_nil, or_false] at hp
    rcases hp with rfl | rfl | rfl <;> exact each_about trivial
  | recentlyRead =>
    rw [SpecialFeed.filter]
    refine each_about_all fun p hp => ?_
    simp only [List.mem_cons, List.not_mem_nil, or_false] at hp
    rcases hp with rfl | rfl | rfl <;> exact each_about trivial
  | _ => exact each_about trivial

/-- What a selection is about asks for no labels but the owner's, if its own label is one. -/
theorem filter_about (howns : ∀ id, s.kind = .label id → e.store.Owns ctx.owner (.label id))
    (limits : Limits) (forest : Option CategoryForest) :
    Each (About e.store ctx.owner) (s.filter ctx limits forest) := by
  unfold Selection.filter
  cases hkind : s.kind with
  | category id =>
    simp only
    split
    · split
      · exact (each_atom (a := .inList _ _) trivial).mpr trivial
      · exact each_about trivial
    · exact each_about trivial
  | uncategorized =>
    refine each_about_all fun p hp => ?_
    simp only [List.mem_cons, List.not_mem_nil, or_false] at hp
    rcases hp with rfl | rfl <;> exact each_about trivial
  | labels => exact (each_atom (a := .labelOf _) trivial).mpr rfl
  | label id => exact (each_atom (a := .label id) trivial).mpr (howns id hkind)
  | tag name => exact (each_atom (a := .tag _ _) trivial).mpr rfl
  | special feed => exact special_about limits _ feed
  | _ => exact each_about trivial

/-- A label that is listed is the owner's. -/
theorem ownFilter_about (howns : e.store.Owns ctx.owner s.kind) :
    Each (About e.store ctx.owner) (e.ownFilter ctx s) :=
  filter_about (fun _ hkind => hkind ▸ howns) e.limits _

theorem viewMode_about (mode : ViewMode) (kind : Reference) :
    Each (About e.store ctx.owner) (mode.filter kind) := by
  cases mode with
  | unread =>
    rw [ViewMode.filter]
    split <;> exact each_about trivial
  | hasNote =>
    rw [ViewMode.filter, Search.hasNote]
    refine each_about_all fun p hp => ?_
    simp only [List.mem_cons, List.not_mem_nil, or_false] at hp
    rcases hp with rfl | rfl <;> exact each_about trivial
  | _ => exact each_about trivial

theorem viewOf_about (searching : Bool) :
    Each (About e.store ctx.owner) (e.viewOf ctx request s searching) := by
  unfold viewOf
  cases request.viewMode with
  | adaptive =>
    simp only
    split
    · exact each_about trivial
    · split <;> exact each_about trivial
  | _ => exact viewMode_about _ s.kind

theorem planFor_about (howns : e.store.Owns ctx.owner s.kind) (heading : Heading)
    {search : Option CompiledSearch}
    (hsearch : ∀ c, search = some c → Each (About e.store ctx.owner) c.predicate) :
    Each (About e.store ctx.owner) (e.planFor ctx request s heading search).query.filter := by
  change Each (About e.store ctx.owner) (Predicate.all
    ((search.map CompiledSearch.predicate).getD .always ::
      e.otherFilters ctx request s search.isSome))
  refine each_about_all fun p hp => ?_
  simp only [otherFilters, List.mem_cons, List.not_mem_nil, or_false] at hp
  rcases hp with rfl | rfl | rfl | rfl | rfl
  · cases search with
    | none => exact each_about trivial
    | some c => exact hsearch c rfl
  · cases request.start <;> exact each_about trivial
  · exact viewOf_about search.isSome
  · cases request.sinceId <;> exact each_about trivial
  · exact ownFilter_about howns

theorem planFor_safe (heading : Heading) {search : Option CompiledSearch}
    (hsearch : ∀ c, search = some c → Each Safe c.predicate) :
    Each Safe (e.planFor ctx request s heading search).query.filter := by
  have hplain {p : Predicate} (hp : Each Plain p) : Each Safe p :=
    fun a ha => safe_of_plain (hp a ha)
  change Each Safe (Predicate.all ((search.map CompiledSearch.predicate).getD .always ::
    e.otherFilters ctx request s search.isSome))
  refine each_safe_all fun p hp => ?_
  rcases List.mem_cons.mp hp with rfl | hp
  · cases search with
    | none => exact hplain (each_of_plain trivial)
    | some c => exact hsearch c rfl
  · exact hplain ((e.otherFilters_plain ctx request s _).1 p hp)

/-- A search asks about labels that have been looked up for the owner. -/
theorem searchMeaning_about {c : CompiledSearch} (hplugins : e.plugins = .none)
    (hmeaning : e.searchMeaning ctx request = .ok (some c)) :
    Each (About e.store ctx.owner) c.predicate := by
  unfold searchMeaning at hmeaning
  split at hmeaning
  · obtain ⟨c', hc', hsome⟩ := exists_of_map hmeaning
    obtain rfl : c' = c := Option.some.inj hsome
    rw [meaningOf, hplugins] at hc'
    have hcovers : Search.Covers (e.labelLookup ctx) (About e.store ctx.owner) := by
      refine ⟨fun _ => about_of_basic, fun _ _ _ => trivial, fun _ => trivial,
        fun caption id hid => ?_⟩
      unfold labelLookup reads Store.under GuardedStore.findLabel? CancelToken.guarded at hid
      split at hid
      · cases hid
      · have hfound : e.store.findLabel? ctx.owner caption = some id := Except.ok.inj hid
        obtain ⟨l, hl, rfl⟩ := Option.map_eq_some_iff.mp hfound
        have hmem := List.mem_mergeSort.mp (List.mem_of_mem_head? hl)
        obtain ⟨hlabel, howner⟩ := List.mem_filter.mp hmem
        exact ⟨l, hlabel, rfl, (of_decide_eq_true howner).1⟩
    exact Search.compile_each hcovers (fun _ _ => trivial) hc'
  · cases Except.ok.inj hmeaning

end Filters

section Answers

/-- A search, once it has been tried, is what it was or is refused. -/
theorem triedSearch_cases {c tried : CompiledSearch} (h : e.triedSearch ctx c = .ok tried) :
    tried = c ∧ Accepted c.predicate.fullTextTerms ∨ tried = c.refused := by
  unfold triedSearch at h
  split at h
  · rename_i hterms
    refine .inl ⟨(Except.ok.inj h).symm, ?_⟩
    rw [List.isEmpty_iff.mp hterms]
    exact fun term hterm => absurd hterm List.not_mem_nil
  · obtain ⟨runs, hruns, rfl⟩ := exists_of_map h
    cases hprobe : e.store.probe ctx.owner c.predicate with
    | error f =>
      rw [hprobe] at hruns
      cases hruns
    | ok runs' =>
      rw [hprobe] at hruns
      obtain rfl : runs' = runs := Except.ok.inj hruns
      have haccepted := Store.accepted_of_probe hprobe
      cases runs' with
      | true => exact .inl ⟨rfl, haccepted.mp rfl⟩
      | false => exact .inr rfl

theorem triedSearch_alike (t : Store) {c : CompiledSearch} (hc : c.IsWorded)
    (hclear : ctx.token.tripped = false) :
    Alike (¬Each Safe c.predicate) (e.triedSearch ctx c) ((e.onStore t).triedSearch ctx c) := by
  unfold triedSearch
  split
  · exact .of_eq rfl
  · by_cases haccepted : Accepted c.predicate.fullTextTerms
    · have hguarded := Alike.guarded
        (Store.probe_alike e.store t ctx.owner (hc.runnable haccepted)) ctx.token
      rw [CancelToken.guarded, CancelToken.guarded, hclear] at hguarded
      exact hguarded.map _
    · exact .of_eq (by
        rw [Store.probe_eq_of_refused e.store (e.onStore t).store ctx.owner haccepted])

include h

theorem fetch_alike {q : ListingQuery} (howner : q.owner = ctx.owner)
    (hfilter : Each (About e.store ctx.owner) q.filter) (hrun : Each Runnable q.filter)
    (answer : Answer) :
    Alike (¬Each Safe q.filter) (e.fetch ctx q answer) ((e.onStore t).fetch ctx q answer) := by
  unfold fetch
  split
  · exact .of_eq rfl
  · split
    · exact .of_eq rfl
    · exact (Alike.guarded (h.headlines_alike howner hfilter hrun) ctx.token).map _

theorem guard_alike {q : ListingQuery} (howner : q.owner = ctx.owner)
    (hfilter : Each (About e.store ctx.owner) q.filter) (hrun : Each Runnable q.filter)
    (page : Page) (minutes : Int) :
    Alike (¬Each Safe q.filter) (e.guard ctx q page minutes)
      ((e.onStore t).guard ctx q page minutes) := by
  have hrecent {P : Predicate → Prop} (halways : P .always) (hnever : P .never)
      (hcompare : P (.compare .dateEntered .ge
        (.time (Time.minutesBefore ctx.now minutes)))) (hq : Each P q.filter) :
      Each P (q.recentFilter (Time.minutesBefore ctx.now minutes)) := by
    refine each_all halways hnever fun p hp => ?_
    simp only [List.mem_cons, List.not_mem_nil, or_false] at hp
    rcases hp with rfl | rfl
    · exact (each_atom (a := .compare _ _ _) trivial).mpr hcompare
    · exact hq
  have hread := h.firstId_alike howner (hrecent trivial trivial trivial hfilter)
    (hrecent trivial trivial trivial hrun)
  exact ((Alike.guarded hread ctx.token).map _).mono
    fun hnot hsafe => hnot (hrecent rfl rfl rfl hsafe)

theorem answerPlan_alike {p : Plan} (howner : p.query.owner = ctx.owner)
    (hfilter : Each (About e.store ctx.owner) p.query.filter)
    (hrun : Each Runnable p.query.filter) :
    Alike (¬Each Safe p.query.filter) (e.answerPlan ctx request p)
      ((e.onStore t).answerPlan ctx request p) := by
  unfold answerPlan
  simp only
  split
  · refine (guard_alike h howner hfilter hrun request.page e.limits.guardMinutes).bind
      fun outcome _ => ?_
    split
    · exact .of_eq rfl
    · exact fetch_alike h howner hfilter hrun _
  · exact fetch_alike h howner hfilter hrun _

theorem answerSearch_alike (hclear : ctx.token.tripped = false)
    (howns : e.store.Owns ctx.owner s.kind) (heading : Heading) {search : Option CompiledSearch}
    (hworded : ∀ c, search = some c → c.IsWorded)
    (habout : ∀ c, search = some c → Each (About e.store ctx.owner) c.predicate) :
    Alike (∃ c, search = some c ∧ ¬Each Safe c.predicate)
      (e.answerSearch ctx request s heading search)
      ((e.onStore t).answerSearch ctx request s heading search) := by
  have hplan (tried : Option CompiledSearch)
      (habout : ∀ c, tried = some c → Each (About e.store ctx.owner) c.predicate)
      (hrun : ∀ c, tried = some c → Each Runnable c.predicate) :
      Alike (∃ c, tried = some c ∧ ¬Each Safe c.predicate)
        (e.answerPlan ctx request (e.planFor ctx request s heading tried))
        ((e.onStore t).answerPlan ctx request
          ((e.onStore t).planFor ctx request s heading tried)) := by
    rw [planFor_apart h (ownFilter_about howns)]
    refine (answerPlan_alike h rfl (planFor_about howns heading habout)
      (e.planFor_runnable ctx request s heading hrun)).mono fun hnot => ?_
    by_contra hnone
    refine hnot (planFor_safe heading fun c hc => ?_)
    by_contra hsafe
    exact hnone ⟨c, hc, hsafe⟩
  cases search with
  | none =>
    refine (hplan none (by simp) (by simp)).mono fun hsome => ?_
    obtain ⟨c, hc, -⟩ := hsome
    cases hc
  | some c =>
    have hreason (hnot : ¬Each Safe c.predicate) :
        ∃ c', some c = some c' ∧ ¬Each Safe c'.predicate := ⟨c, rfl, hnot⟩
    refine (((triedSearch_alike t (hworded c rfl) hclear).mono hreason).map some).bind
      fun found hfound => ?_
    obtain ⟨tried, htried, rfl⟩ := exists_of_map hfound
    rcases triedSearch_cases htried with ⟨rfl, haccepted⟩ | rfl
    · exact hplan (some tried) habout fun c hc =>
        Option.some.inj hc ▸ (hworded tried rfl).runnable haccepted
    · have hnever {P : Predicate → Prop} (hP : P .never) :
          ∀ c', some c.refused = some c' → Each P c'.predicate := by
        intro c' hc'
        rw [← Option.some.inj hc']
        exact (each_atom (a := .never) trivial).mpr hP
      refine (hplan (some c.refused) (hnever trivial) (hnever trivial)).mono fun hsome => ?_
      obtain ⟨c', hc', hnot⟩ := hsome
      exact absurd (hnever (P := Safe) rfl c' hc') hnot

theorem headlines_alike (hplugins : e.plugins = .none) (request : Request) :
    Alike (∃ c, e.searchMeaning ctx request = .ok (some c) ∧ ¬Each Safe c.predicate)
      (e.headlines ctx request) ((e.onStore t).headlines ctx request) := by
  cases hclear : ctx.token.tripped with
  | true => exact .of_eq (by simp only [headlines, hclear, if_true])
  | false =>
    cases hs : Selection.ofAddress? request.feed request.isCategory request.includeChildren
        ctx.prefs with
    | none => exact .of_eq (by simp only [headlines, hs])
    | some s =>
      cases hplugin : s.pluginFeed? with
      | some id => exact .of_eq (by simp only [headlines, hs, hplugin]; rfl)
      | none =>
        have hdescribe := describe_apart (s := s) h request.isCategory
        rcases describe_cases (e := e) (s := s) hclear request.isCategory with
          ⟨howns, -⟩ | ⟨-, what, hwhat⟩
        · obtain ⟨heading, hheading, hheadlines⟩ :=
            headlines_of_resolved h.left.sound hclear hs hplugin howns
          rw [hheading] at hdescribe
          have howns' : (e.onStore t).store.Owns ctx.owner s.kind := by
            rcases describe_cases (e := e.onStore t) hclear request.isCategory with
              ⟨howns, -⟩ | ⟨-, what, hwhat⟩
            · exact howns
            · rw [hdescribe] at hwhat
              cases hwhat
          obtain ⟨heading', hheading', hheadlines'⟩ :=
            headlines_of_resolved h.right.sound hclear hs hplugin howns'
          obtain rfl := Except.ok.inj (hdescribe.symm.trans hheading')
          obtain ⟨search, hsearch, hworded⟩ := searchMeaning_ok hplugins hclear request
          rw [searchFor_eq hclear, hsearch] at hheadlines
          rw [searchFor_eq hclear, searchMeaning_apart h, hsearch] at hheadlines'
          rw [hheadlines, hheadlines']
          refine (answerSearch_alike h hclear howns heading hworded fun c hc => ?_).mono
            fun hnot => ?_
          · exact searchMeaning_about hplugins (hsearch.trans (congrArg _ hc))
          · obtain ⟨c, hc, hsafe⟩ := hnot
            exact ⟨c, hsearch.trans (congrArg _ hc), hsafe⟩
        · rw [hwhat] at hdescribe
          refine .of_eq ?_
          simp only [headlines, hclear, hs, hplugin, plan_eq h.left.sound hclear hs hplugin,
            plan_eq (e := e.onStore t) h.right.sound hclear hs hplugin, hwhat, hdescribe,
            Except.bind, Bool.false_eq_true, if_false]

theorem snapshot_apart : (e.onStore t).snapshot ctx = e.snapshot ctx := by
  have hforest : (e.onStore t).forest ctx = e.forest ctx := by
    simp only [forest, reads, onStore, Store.under, GuardedStore.categories, h.categories_same]
  unfold snapshot
  simp only [hforest]
  simp only [reads, onStore, Store.under, GuardedStore.feedCounters, GuardedStore.feeds,
    GuardedStore.labelCounts, h.feedCounters_same, h.feeds_same, h.labelCounts_same]

end Answers

/-- Owners do not see each other. In two stores that have the same of an owner, the sidebar is the
same, and every request is answered in the same way, unless its search is beyond the limits of the
store and one of the two stops at a row for that. -/
theorem others_unseen (e : Engine) (t : Store) (ctx : Context) (hs : e.store.Reachable)
    (ht : t.Reachable) (hsame : Store.SameFor ctx.owner e.store t) (hplugins : e.plugins = .none) :
    (e.onStore t).snapshot ctx = e.snapshot ctx ∧
      ∀ request, (e.onStore t).headlines ctx request = e.headlines ctx request ∨
        (∃ c, e.searchMeaning ctx request = .ok (some c) ∧ ¬Each Safe c.predicate) ∧
          (Stopped (e.headlines ctx request) ∨ Stopped ((e.onStore t).headlines ctx request)) := by
  have h : Store.Apart ctx.owner e.store t := ⟨hs, ht, hsame⟩
  refine ⟨snapshot_apart h, fun request => ?_⟩
  rcases headlines_alike h hplugins request with heq | hstopped
  · exact .inl heq.symm
  · exact .inr hstopped

/-! ### The limit on the length of a text

A search in a category, for a title that is longer than the store compares. The store looks at no
article as long as there is no feed at all; where another owner has a feed, it looks at the titles
and stops.
-/

def newsHistory : List Operation :=
  [.addCategory 1 none "News",
   .addArticle ⟨"fox", "Red Fox", none, "", none, 0, ⟨1715342400, 0⟩, ⟨1715342400, 0⟩⟩
    ⟨1, none, true, false, false, none, none, none, none, "", ""⟩]

def newsEngine : Engine := ⟨Store.ofHistory newsHistory, .none, .standard⟩

/-- The same with a feed of another owner. -/
def crowdedStore : Store :=
  Store.ofHistory (newsHistory ++ [.addFeed ⟨2, "u", none, none, none, none, none⟩])

/-- A feed of another owner that no copy of this owner is in. -/
theorem sameFor_addFeed {s : Store} {owner : Int} {f : Feed} (hother : f.owner ≠ owner)
    (hcopies : ∀ c ∈ s.copies, c.owner = owner → c.feed ≠ some f.id) (next : Counts) :
    Store.SameFor owner s { s with feeds := s.feeds ++ [f], next } := by
  have hfeeds {g : Feed} (hg : g ≠ f) : g ∈ s.feeds ↔ g ∈ s.feeds ++ [f] := by
    rw [List.mem_append, List.mem_singleton, or_iff_left hg]
  refine ⟨fun _ => Iff.rfl, fun _ => Iff.rfl, fun _ _ => Iff.rfl, fun g hg => hfeeds ?_,
    fun _ _ => Iff.rfl, fun c hc howner g hg => hfeeds ?_, fun _ _ => Iff.rfl,
    fun _ _ _ _ => Iff.rfl, fun _ _ => Iff.rfl⟩
  · intro heq
    exact hother (heq ▸ hg)
  · intro heq
    exact hcopies c hc howner (heq ▸ hg)

theorem crowded_same : Store.SameFor 1 newsEngine.store crowdedStore := by
  have hcrowded : crowdedStore = { newsEngine.store with
      feeds := newsEngine.store.feeds ++ [⟨1, 2, "u", none, none, none, none, none⟩]
      next := crowdedStore.next } := by decide +kernel
  rw [hcrowded]
  exact sameFor_addFeed (by decide) (by decide +kernel) _

theorem others_unseen_news :
    newsEngine.store.Reachable ∧ crowdedStore.Reachable ∧
      Store.SameFor 1 newsEngine.store crowdedStore ∧ newsEngine.plugins = .none ∧
      (newsEngine.onStore crowdedStore).snapshot readerContext =
        newsEngine.snapshot readerContext ∧
      (newsEngine.onStore crowdedStore).headlines readerContext (.plain (.id (-4))) =
        newsEngine.headlines readerContext (.plain (.id (-4))) := by
  have hs : newsEngine.store.Reachable := ⟨newsHistory, rfl⟩
  have ht : crowdedStore.Reachable := ⟨_, rfl⟩
  obtain ⟨hsnapshot, hheadlines⟩ :=
    others_unseen newsEngine crowdedStore readerContext hs ht crowded_same rfl
  refine ⟨hs, ht, crowded_same, rfl, hsnapshot, ?_⟩
  rcases hheadlines (.plain (.id (-4))) with heq | ⟨⟨c, hmeaning, -⟩, -⟩
  · exact heq
  · have hnone : newsEngine.searchMeaning readerContext (.plain (.id (-4))) = .ok none := rfl
    rw [hnone] at hmeaning
    cases hmeaning

def titleFilter (w : List Char) : Predicate :=
  .conj [.contains .title (String.ofList w), .compare .categoryId .eq (.int 1)]

/-- A word that is longer than the store compares. -/
@[irreducible]
def longWord : List Char := List.replicate 50001 'a'

theorem mem_longWord : ∀ c ∈ longWord, c = 'a' := by
  rw [longWord]
  exact fun _ hc => List.eq_of_mem_replicate hc

theorem longWord_length : Scan.longestPattern < longWord.length := by
  rw [longWord, List.length_replicate]
  decide

theorem longWord_ne_nil : longWord ≠ [] :=
  List.ne_nil_of_length_pos (Nat.zero_lt_of_lt longWord_length)

theorem longWord_tooLong : Scan.isTooLong (String.ofList longWord) = true :=
  Scan.isTooLong_of_length mem_longWord longWord_length

section Scan

open Scan

def longGoal : Goal :=
  .ofFilter (Condition.ofPredicate (titleFilter longWord)) false (.page .standard (some 30) 0 true)

/-- The copies are gone over, and the title of each is looked at in turn. -/
def seeks : List Level → Bool
  | ⟨.copies, [⟨_, [], [], [], _⟩], [], _⟩ ::
      ⟨.articles, [⟨_, [], [], [], _⟩], [.test (.cell .title none (.contains _))], _⟩ :: _ => true
  | _ => false

theorem longGoal_seeks : seeks (longGoal.levels longGoal.route) = true := by decide +kernel

theorem longGoal_free : longGoal.terms.filter Condition.isFree = [] := rfl

theorem longGoal_bare : ((longGoal.levels longGoal.route).drop 2).any (fun level =>
    !(level.table = .feeds && longGoal.keepsArchived) && isBare newsEngine.store level.table) =
      true := by
  decide +kernel

theorem longGoal_filled : ((longGoal.levels longGoal.route).drop 2).any (fun level =>
    !(level.table = .feeds && longGoal.keepsArchived) && isBare crowdedStore level.table) =
      false := by
  decide +kernel

theorem crowded_rows : ∃ c a, ∀ f,
    rowsOf crowdedStore 1 false f .empty .copies = [⟨none, some c, none⟩] ∧
      rowsOf crowdedStore 1 false f ⟨none, some c, none⟩ .articles = [⟨some a, some c, none⟩] := by
  refine ⟨crowdedStore.copies.head (by decide), crowdedStore.articles.head (by decide), ?_⟩
  decide +kernel

/-- The walk comes upon the article, and with it upon the text. -/
theorem walk_seeks {levels : List Level} (hshape : seeks levels = true) {kept : List Test}
    (hfrom : ∀ level ∈ levels, level.From kept)
    (hkept : ∀ needle, .cell .title none (.contains needle) ∈ kept.map Test.bare →
      isTooLong needle) (isEnough : Nat → Bool) :
    walk crowdedStore 1 false isEnough levels 0 .empty = .error .tooLong := by
  have hsort (i : Index) (l : Look) : i.sort [l] = [l] := by simp [Index.sort]
  unfold seeks at hshape
  split at hshape
  · rename_i i f b j f' needle b' rest
    have hlong : isTooLong needle := by
      have hchecks := (hfrom _ (List.mem_cons_of_mem _ List.mem_cons_self)).checks _
        List.mem_cons_self
      exact hkept needle (hchecks _ List.mem_cons_self).2
    obtain ⟨c, a, hrows⟩ := crowded_rows
    obtain ⟨hc, -⟩ := hrows f
    obtain ⟨-, ha⟩ := hrows f'
    have hask : Test.ask crowdedStore ⟨some a, some c, none⟩
        (.cell .title none (.contains needle)) = .error .tooLong := by
      simp [Test.ask, Question.fault?, hlong, Look.cell, numberKind?, Cell.ofText?, Column.isNumber]
    have hinner : walk crowdedStore 1 false isEnough
        (⟨.articles, [⟨j, [], [], [], f'⟩], [.test (.cell .title none (.contains needle))], b'⟩ ::
          rest) 0 ⟨none, some c, none⟩ = .error .tooLong := by
      rw [walk]
      simp only [untilEnough, Condition.allHold, ha, hsort, Except.bind, List.flatMap_nil,
        List.findSome?_nil, List.append_nil, List.reverse_singleton, ite_self,
        List.length_singleton, Nat.lt_irrefl, decide_false, Bool.false_and, Bool.not_true,
        Bool.or_self, Condition.holds, hask]
      rfl
    rw [walk]
    simp only [untilEnough, Condition.allHold, hc, hsort, Except.bind, List.flatMap_nil,
      List.findSome?_nil, List.append_nil, List.reverse_singleton, ite_self,
      List.length_singleton, Nat.lt_irrefl, decide_false, Bool.false_and, Bool.not_true,
      Bool.or_self, Look.isWhole, Option.all_some, Option.all_none, Bool.and_self, hinner]
    rfl
  · cases hshape

theorem titleFilter_tests (w : List Char) : (Condition.ofPredicate (titleFilter w)).tests =
    [.cell .title none (.contains (String.ofList w)),
      .cell .categoryId none (.compare .eq (.int 1))] := rfl

theorem run_crowded : longGoal.run crowdedStore 1 = .error .tooLong := by
  have hterms : ∀ c ∈ longGoal.terms, c.From (Condition.ofPredicate (titleFilter longWord)).tests :=
    Condition.from_withValues fun c hc t ht =>
      ⟨Condition.tests_typed (titleFilter longWord) t (Condition.tests_requirements hc ht),
        List.mem_map_of_mem (Condition.tests_requirements hc ht)⟩
  have hkept (needle : String) (h : .cell .title none (.contains needle) ∈
      (Condition.ofPredicate (titleFilter longWord)).tests.map Test.bare) : isTooLong needle := by
    have hneedle : needle = String.ofList longWord := by
      rw [titleFilter_tests] at h
      simpa [Test.bare] using h
    rw [hneedle]
    exact longWord_tooLong
  have hwalk := walk_seeks longGoal_seeks (Goal.levels_from hterms longGoal.route) hkept
  have hkeeps : longGoal.keepsArchived = false := rfl
  rw [Goal.run_filled longGoal_free longGoal_filled, hkeeps, hwalk]
  rfl

theorem crowded_fault : crowdedStore.fault? 1 false (titleFilter longWord)
    (.page .standard (some 30) 0 true) = some .tooLong := by
  have hfail : (Condition.ofPredicate (titleFilter longWord)).mayFail = true := by
    rw [Condition.mayFail, titleFilter_tests]
    simp [Test.mayFail, longWord_tooLong]
  exact crowdedStore.fault_of_error 1 false rfl hfail (by decide) run_crowded

theorem news_fault : newsEngine.store.fault? 1 false (titleFilter longWord)
    (.page .standard (some 30) 0 true) = none :=
  newsEngine.store.fault_of_ok 1 false rfl (Goal.run_bare longGoal_free longGoal_bare)

end Scan

/-- A search of the titles in a category. -/
def titleRequest (w : List Char) : Request :=
  { Request.plain (.id 1) with
    isCategory := true
    search := some (String.ofList ("title:".toList ++ w)) }

def titleSearch (w : List Char) : CompiledSearch := ⟨.contains .title (String.ofList w), [], none⟩

def newsSelection : Selection := .ofReference (.category 1) true false .standard

section TitleSearch

variable {w : List Char} (hne : w ≠ []) (hw : ∀ c ∈ w, c = 'a')

include hw in
theorem mem_titleSearch {P : Char → Prop} [DecidablePred P]
    (h : "title:a".toList.all fun c => decide (P c)) : ∀ c ∈ "title:".toList ++ w, P c := by
  have htext : "title:a".toList = "title:".toList ++ ['a'] := by decide
  have hall : ∀ c ∈ "title:".toList ++ ['a'], P c := by
    rw [← htext]
    exact List.all_iff_forall_prop.mp h
  rw [List.forall_mem_append] at hall ⊢
  refine ⟨hall.1, fun c hc => ?_⟩
  rw [hw c hc]
  exact hall.2 'a' List.mem_cons_self

include hw in
theorem trim_titleSearch : trimChars ("title:".toList ++ w) = "title:".toList ++ w := by
  have hblank := mem_titleSearch (P := fun c => isBlank c = false) hw (by decide)
  exact trimChars_eq_self (fun c hc => hblank c (List.mem_of_mem_head? hc))
    fun c hc => hblank c (List.mem_of_mem_getLast? hc)

include hw in
theorem tokenize_titleSearch :
    Search.tokenize ("title:".toList ++ w) = [⟨false, "title:".toList ++ w⟩] := by
  have hrun := Search.yields_self
    (mem_titleSearch (P := fun c => c ≠ '"' ∧ isBlank c = false) hw (by decide)) [] []
  rw [List.append_nil, List.nil_append] at hrun
  have htoken : Search.Token.ofRun? ("title:".toList ++ w) =
      some ⟨false, "title:".toList ++ w⟩ := by
    have hplain : Search.Token.ofRun? ("title:".toList ++ w) =
        if trimChars ("title:".toList ++ w) = [] then none
        else some ⟨false, trimChars ("title:".toList ++ w)⟩ := rfl
    rw [hplain, trim_titleSearch hw, if_neg (by simp)]
  rw [Search.tokenize, hrun, Search.runsFrom, if_neg (by simp), List.filterMap_cons_some htoken,
    List.filterMap_nil]

include hne hw

/-- The word is looked for in the title. -/
theorem compile_titleSearch (labels : Search.LabelLookup) (ctx : Context) :
    Search.compile (String.ofList ("title:".toList ++ w)) none ctx labels =
      .ok (titleSearch w) := by
  have hlowered : lowerChars ("title:".toList ++ w) = "title:".toList ++ w :=
    lowerFrom_eq_self (mem_titleSearch hw (by decide +kernel))
  have hvalue : trimChars w = w :=
    trimChars_eq_self (fun c hc => by rw [hw c (List.mem_of_mem_head? hc)]; decide)
      fun c hc => by rw [hw c (List.mem_of_mem_getLast? hc)]; decide
  have hkey : Search.keyAndValue ("title:".toList ++ w) = ("title".toList, w) := by
    have hsplit : Search.keyAndValue ("title:".toList ++ w) = ("title".toList, trimChars w) := by
      simp [Search.keyAndValue]
    rw [hsplit, hvalue]
  have htoken : Search.addToken ctx labels ⟨[], [], []⟩ ⟨false, "title:".toList ++ w⟩ =
      .ok ⟨[.contains .title (String.ofList w)], [], []⟩ := by
    have hkeyword : Search.Keyword.ofText? "title".toList = some .title := by decide
    unfold Search.addToken
    simp only [hlowered, hkey, hkeyword, if_neg hne]
    rfl
  rw [Search.compile, String.toList_ofList, tokenize_titleSearch hw, Search.addTokens, htoken]
  rfl

theorem titleRequest_meaning {e : Engine} (hplugins : e.plugins = .none) :
    e.searchMeaning readerContext (titleRequest w) = .ok (some (titleSearch w)) := by
  have htrim : trim (String.ofList ("title:".toList ++ w)) =
      String.ofList ("title:".toList ++ w) := by
    rw [trim, String.toList_ofList, trim_titleSearch hw]
  have htext : searchText? (titleRequest w) = some (String.ofList ("title:".toList ++ w)) := by
    have hsearch : (titleRequest w).search = some (String.ofList ("title:".toList ++ w)) := rfl
    rw [searchText?, hsearch, Option.map_some, htrim, Option.filter_some_pos (by simp)]
  have hmeaning : e.meaningOf readerContext (String.ofList ("title:".toList ++ w)) none =
      .ok (titleSearch w) := by
    rw [meaningOf, hplugins]
    exact compile_titleSearch hne hw _ _
  have hlanguage : (titleRequest w).searchLanguage = none := rfl
  simp only [searchMeaning, htext, hlanguage, hmeaning]
  rfl

theorem titleRequest_headlines {t : Store} (ht : t.Reachable) (howns : t.Owns 1 (.category 1)) :
    ∃ answer, (newsEngine.onStore t).headlines readerContext (titleRequest w) =
      match t.fault? 1 false (titleFilter w) (.page .standard (some 30) 0 true) with
      | some f => .error (.store f)
      | none => .ok answer := by
  have hselected : Selection.ofAddress? (titleRequest w).feed (titleRequest w).isCategory
      (titleRequest w).includeChildren readerContext.prefs = some newsSelection := rfl
  obtain ⟨heading, -, hheadlines⟩ := headlines_of_resolved (e := newsEngine.onStore t) ht.sound
    rfl hselected rfl howns
  have hmeaning := titleRequest_meaning (e := newsEngine.onStore t) hne hw rfl
  have htried : (newsEngine.onStore t).triedSearch readerContext (titleSearch w) =
      .ok (titleSearch w) := if_pos rfl
  rw [searchFor_eq rfl, hmeaning] at hheadlines
  simp only [Except.bind, htried, Except.map] at hheadlines
  have hplan := (newsEngine.onStore t).answerPlan_search readerContext (titleRequest w)
    newsSelection heading (titleSearch w)
  have hfault (q : ListingQuery) (hq : q = ((newsEngine.onStore t).planFor readerContext
      (titleRequest w) newsSelection heading (some (titleSearch w))).query) :
      (newsEngine.onStore t).store.fault? q.owner q.allowArchived q.filter q.purpose =
        t.fault? 1 false (titleFilter w) (.page .standard (some 30) 0 true) := by
    rw [hq]
    rfl
  rw [hplan, fetch_eq rfl rfl, Store.headlines, hfault _ rfl] at hheadlines
  rw [hheadlines]
  cases t.fault? 1 false (titleFilter w) (.page .standard (some 30) 0 true) with
  | some f => exact ⟨.bare heading false, rfl⟩
  | none => exact ⟨_, rfl⟩

end TitleSearch

theorem others_unseen_unless_stopped :
    ¬∀ (e : Engine) (t : Store) (ctx : Context), e.store.Reachable → t.Reachable →
      Store.SameFor ctx.owner e.store t → e.plugins = .none →
      ∀ request, (e.onStore t).headlines ctx request = e.headlines ctx request := by
  intro hunseen
  have hs : newsEngine.store.Reachable := ⟨newsHistory, rfl⟩
  have ht : crowdedStore.Reachable := ⟨_, rfl⟩
  have heq := hunseen newsEngine crowdedStore readerContext hs ht crowded_same rfl
    (titleRequest longWord)
  obtain ⟨answer, hnews⟩ := titleRequest_headlines longWord_ne_nil mem_longWord hs
    ⟨⟨1, 1, none, "News"⟩, by decide +kernel, rfl, rfl⟩
  obtain ⟨_, hcrowded⟩ := titleRequest_headlines longWord_ne_nil mem_longWord ht
    ⟨⟨1, 1, none, "News"⟩, by decide +kernel, rfl, rfl⟩
  rw [crowded_fault] at hcrowded
  have hnews : newsEngine.headlines readerContext (titleRequest longWord) = .ok answer := by
    rw [news_fault] at hnews
    exact hnews
  rw [hcrowded, hnews] at heq
  cases heq

end Engine

end Newsfeed
