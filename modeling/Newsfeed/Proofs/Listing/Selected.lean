import Newsfeed.Proofs.Listing.Columns
import Newsfeed.Proofs.Listing.Outcome
import Newsfeed.Proofs.Listing.Rule

/-!
A listing has the rows that its rule tells, each once. Times are told apart by their texts; in the
years 0 to 9999 that is the order of the seconds.
-/

namespace Newsfeed

open Predicate Time

namespace Selection

variable {a : Address} {isCategory includeChildren : Bool} {prefs : Preferences} {s : Selection}

theorem allowArchived_eq (h : ofAddress? a isCategory includeChildren prefs = some s) :
    s.allowArchived = s.kind.listsArchived := by
  rw [(kind_of_address h).2, ofReference_kind]
  cases s.kind with
  | special feed => cases feed <;> rfl
  | _ => rfl

theorem freshHours_eq (h : ofAddress? a isCategory includeChildren prefs = some s) :
    s.freshHours.getD prefs.freshHours = prefs.freshHours := by
  rw [(kind_of_address h).2]
  cases s.kind with
  | special feed => cases feed <;> rfl
  | _ => rfl

end Selection

namespace Engine

variable {e : Engine} {ctx : Context} {request : Request} {s : Selection} {r : Joined}

theorem fresh_iff (ctx : Context) (store : Store) (hours : Int) :
    (SpecialFeed.fresh.filter e.limits ctx hours).admits (store.facts r) ↔
      r.copy.unread ∧ 0 ≤ r.article.score ∧
        TimeOrder.byText r.article.dateEntered (hoursBefore ctx.now hours) .gt := by
  rw [SpecialFeed.filter, admits_all]
  simp only [List.all_cons, List.all_nil, Bool.and_true, Bool.and_eq_true]
  rw [Store.admits_unread, Store.admits_score, Store.admits_entered]
  simp [Comparison.accepts, TimeOrder.byText]

theorem recentlyRead_iff (ctx : Context) (store : Store) (hours : Int) :
    (SpecialFeed.recentlyRead.filter e.limits ctx hours).admits (store.facts r) ↔
      r.copy.unread = false ∧ ∃ read, r.copy.lastRead = some read ∧
        TimeOrder.byText read (hoursBefore ctx.now e.limits.recentlyReadHours) .gt := by
  have hcell : (store.facts r).cell .lastRead = Cell.ofText? r.copy.lastRead := rfl
  have hunread := admits_switch (show (store.facts r).cell .unread = _ from rfl) false
  rw [SpecialFeed.filter, admits_all]
  simp only [List.all_cons, List.all_nil, Bool.and_true, Bool.and_eq_true]
  rw [hunread, admits_notNull, hcell, Store.admits_read]
  constructor
  · rintro ⟨hread, -, hlast⟩
    exact ⟨hread, hlast⟩
  · rintro ⟨hread, read, hlast, hafter⟩
    exact ⟨hread, by simp [hlast], read, hlast, hafter⟩

theorem branch_iff (h : Store.Sound e.store) (owner id : Int) :
    (inBranch (.ofCategories (e.store.categoriesOfOwner owner) e.limits.categoryDepth) id).admits
        (e.store.facts r) ↔
      ∃ f category, r.feed = some f ∧ f.category = some category ∧ (category = id ∨
        ∃ k ≤ e.limits.categoryDepth, e.store.Above owner id k category) := by
  have hcell : (e.store.facts r).cell .categoryId = Cell.ofInt? (r.feed.bind Feed.category) := rfl
  rw [inBranch, admits_inList hcell]
  simp only [Store.mem_branch h]
  constructor
  · rintro ⟨category, hmem, hfeed⟩
    obtain ⟨f, hf, hcategory⟩ := Option.bind_eq_some_iff.mp hfeed
    exact ⟨f, category, hf, hcategory, hmem⟩
  · rintro ⟨f, category, hf, hcategory, hmem⟩
    exact ⟨category, hmem, Option.bind_eq_some_iff.mpr ⟨f, hf, hcategory⟩⟩

theorem uncategorized_iff (h : Store.Sound e.store) (hr : e.store.IsRow r) :
    isUncategorized.admits (e.store.facts r) ↔ ∃ f, r.feed = some f ∧ f.category = none := by
  have hcategory : (e.store.facts r).cell .categoryId = Cell.ofInt? (r.feed.bind Feed.category) :=
    rfl
  have hfeed : (e.store.facts r).cell .feedId = Cell.ofInt? r.copy.feed := rfl
  rw [isUncategorized, admits_all]
  simp only [List.all_cons, List.all_nil, Bool.and_true, Bool.and_eq_true]
  rw [admits_isNull, admits_notNull, hcategory, hfeed, Cell.ofInt_null, ne_eq, Cell.ofInt_null,
    ← Store.feed_eq_none h hr]
  cases r.feed <;> simp

theorem labels_iff (store : Store) (owner : Int) :
    admits (.labelOf owner) (store.facts r) ↔
      ∃ l ∈ store.labels, l.owner = owner ∧ ⟨l.id, r.article.id⟩ ∈ store.labelings := by
  simp only [admits, truth, Truth.holds, Store.facts, Store.hasLabelOf, beq_iff_eq,
    Option.some.injEq, List.any_eq_true, decide_eq_true_eq]
  constructor
  · rintro ⟨l, hl, harticle, b, hb, hid, howner⟩
    refine ⟨b, hb, howner, ?_⟩
    rwa [hid, ← harticle]
  · rintro ⟨b, hb, howner, hl⟩
    exact ⟨_, hl, rfl, b, hb, rfl, howner⟩

/-- The filter of a selection lets through what the selection covers. -/
theorem admits_own (h : Store.Sound e.store)
    (hs : Selection.ofAddress? request.feed request.isCategory request.includeChildren ctx.prefs =
      some s) (hr : e.store.IsRow r) :
    (e.ownFilter ctx s).admits (e.store.facts r) ↔ e.Covers ctx .byText s r := by
  have hfresh := Selection.freshHours_eq hs
  unfold ownFilter Covers Selection.filter forestOf
  cases hkind : s.kind with
  | feed id => exact Store.admits_feed id
  | category id =>
    simp only
    by_cases hchildren : s.includeChildren = true
    · simp only [hchildren, if_true, true_and]
      exact branch_iff h ctx.owner id
    · simp only [if_neg hchildren]
      rw [Store.admits_category, Option.bind_eq_some_iff]
      simp [hchildren]
  | uncategorized => exact uncategorized_iff h hr
  | labels => exact labels_iff e.store ctx.owner
  | label id => exact Store.admits_label id
  | tag name => simp [admits, truth, Truth.holds, Store.facts]
  | plugin id => simp [admits_never]
  | special feed =>
    cases feed with
    | starred => exact admits_switch rfl true
    | published => exact admits_switch rfl true
    | fresh =>
      simp only [hfresh]
      exact fresh_iff ctx e.store _
    | all => exact iff_of_true (admits_always _) trivial
    | archived => exact admits_isNull.trans Cell.ofInt_null
    | recentlyRead => exact recentlyRead_iff ctx e.store _

theorem unreadRows_ne_nil (h : Store.Sound e.store)
    (hs : Selection.ofAddress? request.feed request.isCategory request.includeChildren ctx.prefs =
      some s) :
    e.unreadRows ctx s.kind (e.ownFilter ctx s) ≠ [] ↔
      ∃ r, e.store.IsRow r ∧ (r.copy.feed ≠ none ∨ s.kind.countsArchived) ∧
        r.copy.owner = ctx.owner ∧ e.Covers ctx .byText s r ∧ r.copy.unread := by
  rw [← List.length_pos_iff, List.length_pos_iff_exists_mem]
  refine exists_congr fun r => ?_
  rw [unreadRows, Store.mem_matching h]
  have hadmits (hr : e.store.IsRow r) :
      (Predicate.all [e.ownFilter ctx s, isUnread]).admits (e.store.facts r) ↔
        e.Covers ctx .byText s r ∧ r.copy.unread := by
    rw [admits_all]
    simp only [List.all_cons, List.all_nil, Bool.and_true, Bool.and_eq_true]
    rw [admits_own h hs hr, Store.admits_unread]
  constructor
  · rintro ⟨hr, hkept, howner, hpasses⟩
    exact ⟨hr, hkept, howner, (hadmits hr).mp hpasses⟩
  · rintro ⟨hr, hkept, howner, hpasses⟩
    exact ⟨hr, hkept, howner, (hadmits hr).mpr hpasses⟩

theorem admits_view (h : Store.Sound e.store)
    (hs : Selection.ofAddress? request.feed request.isCategory request.includeChildren ctx.prefs =
      some s) (searching : Bool) :
    (e.viewOf ctx request s searching).admits (e.store.facts r) ↔
      e.Shows ctx .byText request s searching r := by
  unfold viewOf Shows
  cases request.viewMode with
  | allArticles => exact iff_of_true (admits_always _) trivial
  | adaptive =>
    have hprefers : (¬(searching = true ∨ s.kind = .special .starred) ∧
        s.isCounted request.isCategory ∧ e.unreadRows ctx s.kind (e.ownFilter ctx s) ≠ []) ↔
        e.PrefersUnread ctx .byText request s searching := by
      rw [unreadRows_ne_nil h hs, PrefersUnread, not_or, Bool.not_eq_true, and_assoc]
    by_cases hunread : e.PrefersUnread ctx .byText request s searching
    · obtain ⟨hany, hsome⟩ := hprefers.mpr hunread
      simp only [if_neg hany, if_pos hsome, hunread, true_imp_iff]
      exact Store.admits_unread
    · refine iff_of_true ?_ fun hpref => absurd hpref hunread
      by_cases hany : searching = true ∨ s.kind = .special .starred
      · simp only [if_pos hany, admits_always]
      · have hnone := fun hsome => hunread (hprefers.mp ⟨hany, hsome⟩)
        simp only [if_neg hany, if_neg hnone, admits_always]
  | unread =>
    by_cases hread : s.kind = .special .recentlyRead
    · simp only [ViewMode.filter, if_pos hread, admits_always]
      exact iff_of_true trivial (.inl hread)
    · simp only [ViewMode.filter, if_neg hread, Store.admits_unread]
      exact (or_iff_right hread).symm
  | marked => exact admits_switch rfl true
  | published => exact admits_switch rfl true
  | hasNote => exact Store.admits_note

/-- The filter of a plan lets through what is listed. -/
theorem lists_iff (h : Store.Sound e.store)
    (hs : Selection.ofAddress? request.feed request.isCategory request.includeChildren ctx.prefs =
      some s) (heading : Heading) (search : Option CompiledSearch) :
    Store.Matches e.store ctx.owner s.allowArchived
        (e.planFor ctx request s heading search).query.filter r ↔
      e.Lists ctx .byText request s search r := by
  have hsought : ((search.map CompiledSearch.predicate).getD .always).admits (e.store.facts r) ↔
      ∀ c, search = some c → c.predicate.admits (e.store.facts r) := by
    cases search <;> simp [admits_always]
  have hstart : ((request.start.map fun t => Predicate.compare .dateEntered .ge (.time t)).getD
      .always).admits (e.store.facts r) ↔ ∀ t, request.start = some t →
        TimeOrder.byText r.article.dateEntered t .gt ∨
          TimeOrder.byText r.article.dateEntered t .eq := by
    cases request.start with
    | none => simp [admits_always]
    | some t =>
      simp only [Option.map_some, Option.getD_some, Store.admits_entered, Option.some.injEq,
        forall_eq', TimeOrder.byText, Comparison.accepts]
      cases Ord.compare r.article.dateEntered t.storedText <;> decide
  have hsince : ((request.sinceId.map fun id => Predicate.compare .entryId .gt (.int id)).getD
      .always).admits (e.store.facts r) ↔ ∀ id, request.sinceId = some id → id < r.article.id := by
    cases request.sinceId with
    | none => simp [admits_always]
    | some id => simp [Store.admits_after]
  have hfilter : (e.planFor ctx request s heading search).query.filter.admits (e.store.facts r) ↔
      ((search.map CompiledSearch.predicate).getD .always).admits (e.store.facts r) ∧
        (e.otherFilters ctx request s search.isSome).all fun p => p.admits (e.store.facts r) := by
    rw [← Bool.and_eq_true]
    exact Bool.coe_iff_coe.mpr (admits_all (e.store.facts r) (_ :: _))
  rw [otherFilters] at hfilter
  simp only [List.all_cons, List.all_nil, Bool.and_true, Bool.and_eq_true] at hfilter
  constructor
  · rintro ⟨hr, hkept, howner, hadmits⟩
    obtain ⟨hsearch, hbegin, hview, hid, hown⟩ := hfilter.mp hadmits
    exact ⟨hr, howner, (admits_own h hs hr).mp hown, Selection.allowArchived_eq hs ▸ hkept,
      (admits_view h hs _).mp hview, hsought.mp hsearch, hstart.mp hbegin, hsince.mp hid⟩
  · rintro ⟨hr, howner, hcovered, hlive, hshown, hsearch, hbegin, hid⟩
    exact ⟨hr, (Selection.allowArchived_eq hs).symm ▸ hlive, howner, hfilter.mpr
      ⟨hsought.mpr hsearch, hstart.mpr hbegin, (admits_view h hs _).mpr hshown, hsince.mpr hid,
        (admits_own h hs hr).mpr hcovered⟩⟩

/-- Without plugins a search is ready to run, unless it is beyond the limits of the store or refused
in words that hold a NUL. -/
theorem searchFor_cases (hplugins : e.plugins = .none) (hclear : ctx.token.tripped = false)
    (request : Request) :
    (∃ f, (f.isLimit ∨ f = .garbled) ∧ searchText? request ≠ none ∧
        e.searchFor ctx request = .error (.store f)) ∨
      ∃ search, e.searchFor ctx request = .ok search ∧
        ∀ c, search = some c → Each Runnable c.predicate := by
  obtain ⟨search, hsearch, hworded⟩ := searchMeaning_ok hplugins hclear request
  rw [searchFor_eq hclear, hsearch]
  cases search with
  | none => exact .inr ⟨none, rfl, by simp⟩
  | some c =>
    -- A search is tried on the rows if its one query is accepted, else it is refused.
    have htext : searchText? request ≠ none := by
      intro hnone
      simp [searchMeaning, hnone] at hsearch
    by_cases haccepted : Accepted c.predicate.fullTextTerms
    · have hrun := (hworded c rfl).runnable haccepted
      rcases e.triedSearch_runnable ctx hrun with htried | ⟨f, hf, htried, -⟩
      · refine .inr ⟨some c, by simp [Except.bind, htried, Except.map], ?_⟩
        intro c' hc'
        rwa [← Option.some.inj hc']
      · exact .inl ⟨f, .inl hf, htext, by simp [Except.bind, htried, Except.map]⟩
    · obtain ⟨term, hterm, refusal, hrefused⟩ := exists_refused haccepted
      have htried := e.triedSearch_refused ctx
        (fun _ hother => (hworded c rfl).one_query hterm hother) hterm hrefused
      split at htried
      · exact .inl ⟨.garbled, .inr rfl, htext, by simp [Except.bind, htried, Except.map]⟩
      · refine .inr ⟨some c.refused, by simp [Except.bind, htried, Except.map], ?_⟩
        intro c' hc'
        rw [← Option.some.inj hc']
        exact each_runnable_of_plain (each_of_plain trivial)

theorem page_cases (h : Store.Sound e.store) (hclear : ctx.token.tripped = false)
    (hs : Selection.ofAddress? request.feed request.isCategory request.includeChildren ctx.prefs =
      some s) (hplugin : s.pluginFeed? = none) {p : Plan} (hplan : e.plan ctx request s = .ok p)
    (hrun : Each Runnable p.query.filter) (offset : Int) :
    e.page ctx request offset = .ok (slice (e.pageSize request) offset.toNat
        ((p.rows e.store).map fun r => r.headline request.includeContent)) ∨
      ∃ f, f.isLimit ∧ e.page ctx request offset = .error (.store f) ∧
        ¬(Scan.Condition.ofPredicate p.query.filter).Within := by
  rw [page_eq h hclear hs hplugin hplan]
  by_cases hnever : p.query.filter.isNever = true
  · refine .inl ?_
    rw [if_pos hnever, rows_of_never hnever]
    simp [slice]
  · rw [if_neg hnever]
    cases hf : e.store.fault? p.query.owner p.query.allowArchived p.query.filter
        (p.queryFrom offset).purpose with
    | none => exact .inl rfl
    | some f =>
      refine .inr ⟨f, Store.fault_isLimit hrun hf, rfl, fun hw => ?_⟩
      rw [e.store.fault_of_within _ _ hw] at hf
      cases hf

/-- The pages of a request without plugins have the rows that its rule tells, each once, and no
others. Times are told apart by their texts. As long as the stored ones are in the years 0 to 9999,
that is the order of the whole seconds exactly where no instant of the request is beyond them; at
such an instant the rule by seconds lists nothing. A page is not served only where a search is
beyond the limits of the store, or refused in words that hold a NUL. -/
theorem listing_is_selection (e : Engine) (ctx : Context) (request : Request) (s : Selection)
    (hreach : e.store.Reachable) (hplugins : e.plugins = .none)
    (hclear : ctx.token.tripped = false)
    (hs : Selection.ofAddress? request.feed request.isCategory request.includeChildren ctx.prefs =
      some s) (hresolves : e.Resolves ctx request) :
    (∃ f : Fault, (f.isLimit ∨ f = .garbled) ∧ searchText? request ≠ none ∧
        ∀ offset, e.page ctx request offset = .error (.store f)) ∨
      ∃ (search : Option CompiledSearch) (rows : List Joined),
        e.searchFor ctx request = .ok search ∧
        0 < e.pageSize request ∧
        (rows.map Joined.copy).Nodup ∧
        (∀ r, r ∈ rows ↔ e.Lists ctx .byText request s search r) ∧
        (e.store.HasPlainTimes → ∀ r, e.Lists ctx .bySecond request s search r ↔
          r ∈ rows ∧ ∀ t ∈ e.bounds ctx request s, t.date.year ≤ 9999) ∧
        ∀ offset, e.page ctx request offset = .ok (slice (e.pageSize request) offset.toNat
            (rows.map fun r => r.headline request.includeContent)) ∨
          ∃ c f, search = some c ∧ f.isLimit ∧ e.page ctx request offset = .error (.store f) ∧
            ¬(Scan.Condition.ofPredicate (e.queryFor ctx request s search).filter).Within := by
  have h := hreach.sound
  obtain ⟨hplugin, howns⟩ := hresolves.selected hs
  rcases searchFor_cases hplugins hclear request with
    ⟨f, hf, htext, hsearch⟩ | ⟨search, hsearch, hrun⟩
  · refine .inl ⟨f, hf, htext, ?_⟩
    intro offset
    have hs' : Selection.ofAddress? (request.fromOffset offset).feed
        (request.fromOffset offset).isCategory (request.fromOffset offset).includeChildren
        ctx.prefs = some s := hs
    obtain ⟨heading, -, hheadlines⟩ := headlines_of_resolved h hclear hs' hplugin howns
    have hsearch' : e.searchFor ctx (request.fromOffset offset) = .error (.store f) := hsearch
    rw [page, hheadlines, hsearch']
    rfl
  · obtain ⟨-, heading, hheading⟩ :=
      (describe_cases hclear request.isCategory).resolve_right fun h => h.1 howns
    have hplan : e.plan ctx request s = .ok (e.planFor ctx request s heading search) :=
      (plan_ok_iff h hclear hs hplugin).mpr ⟨heading, search, hheading, hsearch, rfl⟩
    have hperm := SortOrder.sort_perm (e.planFor ctx request s heading search).query.order
      (e.store.matching ctx.owner s.allowArchived
        (e.planFor ctx request s heading search).query.filter)
    have hmem (r : Joined) : r ∈ (e.planFor ctx request s heading search).rows e.store ↔
        e.Lists ctx .byText request s search r :=
      (hperm.mem_iff.trans (Store.mem_matching h)).trans (lists_iff h hs heading search)
    have hcopies : (((e.planFor ctx request s heading search).rows e.store).map
        Joined.copy).Nodup :=
      (hperm.map _).nodup_iff.mpr (Store.matching_copies h _ _ _)
    refine .inr ⟨search, (e.planFor ctx request s heading search).rows e.store, hsearch,
      e.pageSize_pos request, hcopies, hmem, ?_, ?_⟩
    · intro hplain r
      rw [lists_bySecond_iff hplain, hmem]
    · intro offset
      rcases page_cases h hclear hs hplugin hplan
          (e.planFor_runnable ctx request s heading hrun) offset with hpage | ⟨f, hf, hpage, hnot⟩
      · exact .inl hpage
      · cases search with
        | none => exact absurd (e.planFor_within ctx request s heading) hnot
        | some c => exact .inr ⟨c, f, rfl, hf, hpage, hnot⟩

/-- When an article arrives. -/
def arrival : Instant := ⟨1715342400, 0⟩

/-- Half an hour into the year 10000. -/
def farAway : Instant := ⟨253402302600, 0⟩

def arrivedEngine : Engine :=
  ⟨Store.ofHistory [.addArticle ⟨"g", "t", none, "", none, 0, arrival, arrival⟩
    ⟨1, none, true, false, false, none, none, none, none, "", ""⟩], .none, .standard⟩

def arrivedContext : Context := ⟨1, .standard, arrival, .clear⟩

def allArticles : Selection := .ofReference (.special .all) false false .standard

/-- All articles from an instant on. -/
def startingAt (t : Instant) : Request := { Request.plain (.id (-4)) with start := some t }

theorem arrived_times : arrivedEngine.store.times = [arrival.storedText] := by decide +kernel

theorem arrived_plain : arrivedEngine.store.HasPlainTimes := by
  intro stored hstored
  rw [arrived_times, List.mem_singleton] at hstored
  exact ⟨arrival, by unfold Instant.HasPlainYear; decide +kernel, hstored⟩

/-- From its arrival on the article is listed. -/
theorem listing_is_selection_at_arrival :
    arrivedEngine.Resolves arrivedContext (startingAt arrival) ∧
    ∃ rows : List Joined,
      (∀ r, r ∈ rows ↔
        arrivedEngine.Lists arrivedContext .bySecond (startingAt arrival) allArticles none r) ∧
      ∀ offset, arrivedEngine.page arrivedContext (startingAt arrival) offset =
        .ok (slice 30 offset.toNat (rows.map fun r => r.headline false)) := by
  have hresolves : arrivedEngine.Resolves arrivedContext (startingAt arrival) :=
    ⟨.special .all, rfl, by simp, trivial⟩
  have hyear : ∀ t ∈ arrivedEngine.bounds arrivedContext (startingAt arrival) allArticles,
      t.date.year ≤ 9999 := by decide +kernel
  refine ⟨hresolves, ?_⟩
  rcases listing_is_selection arrivedEngine arrivedContext (startingAt arrival) allArticles
    ⟨_, rfl⟩ rfl rfl rfl hresolves with ⟨f, -, htext, -⟩ |
      ⟨search, rows, hsearch, -, -, -, hrows, hpages⟩
  · exact absurd rfl htext
  · obtain rfl : search = none := (Except.ok.inj hsearch).symm
    refine ⟨rows, ?_, ?_⟩
    · intro r
      rw [hrows arrived_plain r]
      exact (and_iff_left hyear).symm
    · intro offset
      rcases hpages offset with hpage | ⟨c, f, hc, -⟩
      · exact hpage
      · cases hc

/-- But it is also listed when the rows are to be from the year 10000. -/
theorem listing_beyond_plain_years :
    ¬∃ rows : List Joined,
      (∀ r, r ∈ rows ↔
        arrivedEngine.Lists arrivedContext .bySecond (startingAt farAway) allArticles none r) ∧
      ∀ offset, arrivedEngine.page arrivedContext (startingAt farAway) offset =
        .ok (slice 30 offset.toNat (rows.map fun r => r.headline false)) := by
  rintro ⟨rows, hrows, hpages⟩
  have hfirst : (arrivedEngine.page arrivedContext (startingAt farAway) 0).map List.length =
      .ok 1 := by decide +kernel
  have hnone : rows = [] := by
    apply List.eq_nil_iff_forall_not_mem.mpr
    intro r hr
    have hbounds := bounds_plain arrived_plain ((hrows r).mp hr) farAway (by decide)
    exact absurd hbounds (by decide +kernel)
  rw [hpages 0, hnone] at hfirst
  cases hfirst

end Engine

end Newsfeed
