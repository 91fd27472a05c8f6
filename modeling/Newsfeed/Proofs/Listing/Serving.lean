import Newsfeed.Listing.Headlines
import Newsfeed.Proofs.Counters.Counting
import Newsfeed.Proofs.Predicate.Columns

/-!
From a request to the pages that are served for it. All pages of a request are cut from the rows of
one plan.
-/

namespace Newsfeed

open Predicate

theorem Reference.category_pos {a : Address} {isCategory : Bool} {id : Int}
    (h : Reference.ofAddress? a isCategory = some (.category id)) : 0 < id := by
  have hid (n : Int) (hn : Reference.ofId? n isCategory = some (.category id)) : 0 < id := by
    unfold Reference.ofId? at hn
    split at hn
    · cases isCategory <;> simp_all
    · split at hn
      · cases isCategory <;> simp_all
      · split at hn <;> (try split at hn) <;> (try split at hn) <;> (try split at hn) <;>
          (try split at hn) <;> (try split at hn) <;> (try split at hn) <;> simp_all
  unfold Reference.ofAddress? at h
  split at h
  · exact hid _ h
  · split at h
    · exact hid _ h
    · split at h <;> simp_all

namespace Selection

variable {a : Address} {isCategory includeChildren : Bool} {prefs : Preferences} {s : Selection}

theorem ofReference_kind (kind : Reference) :
    (ofReference kind isCategory includeChildren prefs).kind = kind := by
  cases kind with
  | special feed => cases feed <;> rfl
  | _ => rfl

theorem kind_of_address (h : ofAddress? a isCategory includeChildren prefs = some s) :
    Reference.ofAddress? a isCategory = some s.kind ∧
      s = ofReference s.kind isCategory includeChildren prefs := by
  obtain ⟨kind, hkind, rfl⟩ := Option.map_eq_some_iff.mp h
  rw [ofReference_kind]
  exact ⟨hkind, rfl⟩

theorem pluginFeed_eq_none : s.pluginFeed? = none ↔ ∀ id, s.kind ≠ .plugin id := by
  unfold pluginFeed?
  cases s.kind <;> simp

end Selection

/-- The request for the rows from an offset on, whatever arrives in the meantime. -/
def Request.fromOffset (r : Request) (offset : Int) : Request :=
  { r with page.offset := offset, skipGuard := true }

/-- The part of a list from an offset on. -/
def slice {α : Type} (size offset : Nat) (rows : List α) : List α := (rows.drop offset).take size

namespace Engine

variable (e : Engine) (ctx : Context)

/-- The forest that a selection is filtered with. -/
def forestOf (s : Selection) : Option CategoryForest :=
  match s.kind with
  | .category _ =>
    if s.includeChildren then
      some (.ofCategories (e.store.categoriesOfOwner ctx.owner) e.limits.categoryDepth)
    else none
  | _ => none

/-- The rows that a selection is about. -/
def ownFilter (s : Selection) : Predicate := s.filter ctx e.limits (e.forestOf ctx s)

/-- The rows that a request's view shows of a selection. -/
def viewOf (request : Request) (s : Selection) (searching : Bool) : Predicate :=
  match request.viewMode with
  | .adaptive =>
    if searching ∨ s.kind = .special .starred then .always
    else if s.isCounted request.isCategory ∧ e.unreadRows ctx s.kind (e.ownFilter ctx s) ≠ [] then
      isUnread
    else .always
  | mode => mode.filter s.kind

/-- The meaning of a request's search, if it has one. -/
def searchFor (request : Request) : Except Failure (Option CompiledSearch) :=
  match searchText? request with
  | some text => (e.compileSearch ctx text request.searchLanguage).map some
  | none => .ok none

/-- What a search means, before it is known whether the store can run it. -/
def meaningOf (text : String) (language : Option String) : Except Failure CompiledSearch :=
  match e.plugins.searchFor? text ctx with
  | some c => .ok c
  | none => Search.compile text language ctx (e.labelLookup ctx)

/-- A search with full-text queries is tried. -/
def triedSearch (c : CompiledSearch) : Except Failure CompiledSearch :=
  if c.predicate.fullTextTerms.isEmpty then .ok c
  else ((e.store.probe ctx.owner c.predicate).mapError .store).map fun runs =>
    if runs then c else c.refused

/-- The plan of a request, when its heading and its search are known. -/
def planFor (request : Request) (s : Selection) (heading : Heading)
    (search : Option CompiledSearch) : Plan where
  selection := s
  query := e.queryOf ctx request s search (e.viewOf ctx request s search.isSome) (e.ownFilter ctx s)
  search := search
  heading := { heading with title := match searchText? request with
    | some text => "Search results: " ++ text
    | none => heading.title }

variable {e ctx} {request : Request} {s : Selection}

theorem compileSearch_eq (hclear : ctx.token.tripped = false) (text : String)
    (language : Option String) :
    e.compileSearch ctx text language =
      (e.meaningOf ctx text language).bind (e.triedSearch ctx) := by
  have htried (c : CompiledSearch) :
      (do
        if c.predicate.fullTextTerms.isEmpty then return c
        let runs ← (e.reads ctx).probe ctx.owner c.predicate
        return if runs then c else c.refused) = e.triedSearch ctx c := by
    simp only [triedSearch, reads, Store.under, GuardedStore.probe, CancelToken.guarded, hclear]
    split
    · rfl
    · cases e.store.probe ctx.owner c.predicate <;> rfl
  unfold compileSearch meaningOf
  cases e.plugins.searchFor? text ctx with
  | some c => exact htried c
  | none =>
    cases Search.compile text language ctx (e.labelLookup ctx) with
    | error f => rfl
    | ok c => exact htried c

theorem forestFor_eq (hclear : ctx.token.tripped = false) :
    e.forestFor ctx s = .ok (e.forestOf ctx s) := by
  unfold forestFor forestOf
  cases s.kind with
  | category id =>
    by_cases hc : s.includeChildren = true
    · simp only [if_pos hc, forest_eq hclear]
      rfl
    · simp only [if_neg hc]
  | _ => rfl

theorem categoryUnread_eq (h : Store.Sound e.store) (hclear : ctx.token.tripped = false)
    {id : Int} (hpos : 0 < id) (hkind : s.kind = .category id) (hchildren : s.includeChildren) :
    e.categoryUnread ctx id true =
      .ok ((e.unreadRows ctx s.kind (e.ownFilter ctx s)).length : Int) := by
  have hown : e.ownFilter ctx s = inBranch
      (.ofCategories (e.store.categoriesOfOwner ctx.owner) e.limits.categoryDepth) id := by
    simp only [ownFilter, Selection.filter, forestOf, hkind, hchildren, if_true]
  have hscope : e.categoryFilter ctx id true = .ok (e.ownFilter ctx s) := by
    rw [categoryFilter, if_neg (Int.ne_of_gt hpos), if_pos rfl, forest_eq hclear, hown]
    rfl
  have hw := both_within (selection_plain s ctx e.limits (e.forestOf ctx s)) isUnread_small
  simp only [categoryUnread, countCategory, hclear, hscope, unreadRows, hkind,
    Reference.countsArchived]
  exact countMatching_eq h hclear hw

theorem adaptiveCount_eq (h : Store.Sound e.store) (hclear : ctx.token.tripped = false)
    (hs : Selection.ofAddress? request.feed request.isCategory request.includeChildren ctx.prefs =
      some s) (hcounted : s.isCounted request.isCategory) :
    (match s.kind with
      | .category id =>
        if s.includeChildren then e.categoryUnread ctx id true
        else e.countSelection ctx s request.isCategory true
      | _ => e.countSelection ctx s request.isCategory true) =
      .ok ((e.unreadRows ctx s.kind (e.ownFilter ctx s)).length : Int) := by
  have hcount := countSelection_counted h hclear hcounted
  cases hkind : s.kind with
  | category id =>
    have hpos : 0 < id := Reference.category_pos (hkind ▸ (Selection.kind_of_address hs).1)
    by_cases hc : s.includeChildren = true
    · simp only [if_pos hc]
      rw [categoryUnread_eq h hclear hpos hkind hc, hkind]
    · have hforest : e.forestOf ctx s = none := by simp only [forestOf, hkind, if_neg hc]
      simp only [if_neg hc]
      rw [hcount, hkind, ownFilter, hforest]
  | _ =>
    have hforest : e.forestOf ctx s = none := by simp only [forestOf, hkind]
    simp only []
    rw [hcount, hkind, ownFilter, hforest]

theorem viewFilter_eq (h : Store.Sound e.store) (hclear : ctx.token.tripped = false)
    (hs : Selection.ofAddress? request.feed request.isCategory request.includeChildren ctx.prefs =
      some s) (hplugin : s.pluginFeed? = none) (searching : Bool) :
    e.viewFilter ctx s request searching = .ok (e.viewOf ctx request s searching) := by
  unfold viewFilter viewOf
  cases request.viewMode with
  | adaptive =>
    by_cases hall : searching = true ∨ s.kind = .special .starred
    · simp only [adaptiveFilter, if_pos hall]
    · simp only [adaptiveFilter, if_neg hall]
      by_cases hcounted : s.isCounted request.isCategory = true
      · refine (congrArg (Except.map fun n => if 0 < n then isUnread else .always)
          (adaptiveCount_eq h hclear hs hcounted)).trans ?_
        simp only [Except.map, hcounted, true_and, Int.natCast_pos, List.length_pos_iff]
      · obtain ⟨feed, hkind⟩ : ∃ feed, s.kind = .special feed := by
          unfold Selection.isCounted at hcounted
          cases hkind : s.kind with
          | special feed => exact ⟨feed, rfl⟩
          | plugin id => exact absurd hkind (Selection.pluginFeed_eq_none.mp hplugin id)
          | _ => simp [hkind] at hcounted
        have hzero := countSelection_special (e := e) hclear hkind (by simpa using hcounted)
        simp only [hkind, hzero, Except.map, hcounted]
        rfl
  | _ => rfl

/-- A plan is made of a heading and a search; nothing else of it can fail. -/
theorem plan_eq (h : Store.Sound e.store) (hclear : ctx.token.tripped = false)
    (hs : Selection.ofAddress? request.feed request.isCategory request.includeChildren ctx.prefs =
      some s) (hplugin : s.pluginFeed? = none) :
    e.plan ctx request s =
      (e.describe ctx s request.isCategory).bind fun heading =>
        (e.searchFor ctx request).map (e.planFor ctx request s heading) := by
  have hcheck : ctx.token.check = .ok () := by simp [CancelToken.check, hclear]
  have hforest := forestFor_eq (e := e) (s := s) hclear
  have hview := viewFilter_eq h hclear hs hplugin
  unfold plan searchFor planFor
  cases e.describe ctx s request.isCategory with
  | error f => rfl
  | ok heading =>
    cases searchText? request with
    | none =>
      simp only [bind, Except.bind, hcheck, hforest, hview]
      rfl
    | some text =>
      cases hsearch : e.compileSearch ctx text request.searchLanguage with
      | error f =>
        simp only [bind, Except.bind, hsearch]
        rfl
      | ok search =>
        simp only [bind, Except.bind, Except.map, hsearch, hcheck, hforest, hview]
        rfl

theorem plan_ok_iff (h : Store.Sound e.store) (hclear : ctx.token.tripped = false)
    (hs : Selection.ofAddress? request.feed request.isCategory request.includeChildren ctx.prefs =
      some s) (hplugin : s.pluginFeed? = none) {p : Plan} :
    e.plan ctx request s = .ok p ↔
      ∃ heading search, e.describe ctx s request.isCategory = .ok heading ∧
        e.searchFor ctx request = .ok search ∧ p = e.planFor ctx request s heading search := by
  rw [plan_eq h hclear hs hplugin]
  cases e.describe ctx s request.isCategory with
  | error f => simp [Except.bind]
  | ok heading =>
    cases e.searchFor ctx request with
    | error f => simp [Except.bind, Except.map]
    | ok search => simp [Except.bind, Except.map, eq_comm]

variable (e ctx)

theorem viewOf_plain (request : Request) (s : Selection) (searching : Bool) :
    Each Plain (e.viewOf ctx request s searching) ∧
      size (e.viewOf ctx request s searching) ≤ 12 := by
  unfold viewOf
  cases request.viewMode with
  | adaptive =>
    simp only
    split
    · exact ⟨each_of_plain trivial, by simp [size]⟩
    · split
      · exact ⟨isUnread_plain, by simp [isUnread, size]⟩
      · exact ⟨each_of_plain trivial, by simp [size]⟩
  | _ => exact viewMode_plain _ s.kind

/-- The parts of a plan's filter beside the search. -/
def otherFilters (request : Request) (s : Selection) (searching : Bool) : List Predicate :=
  [(request.start.map fun t => Predicate.compare .dateEntered .ge (.time t)).getD .always,
   e.viewOf ctx request s searching,
   (request.sinceId.map fun id => Predicate.compare .entryId .gt (.int id)).getD .always,
   e.ownFilter ctx s]

theorem otherFilters_plain (request : Request) (s : Selection) (searching : Bool) :
    (∀ p ∈ e.otherFilters ctx request s searching, Each Plain p) ∧
      sizes (e.otherFilters ctx request s searching) ≤ 36 := by
  have hview := e.viewOf_plain ctx request s searching
  have hown : Each Plain (e.ownFilter ctx s) ∧ size (e.ownFilter ctx s) ≤ 16 :=
    selection_plain s ctx e.limits _
  constructor
  · intro p hp
    simp only [otherFilters, List.mem_cons, List.not_mem_nil, or_false] at hp
    rcases hp with rfl | rfl | rfl | rfl
    · cases request.start <;> exact each_of_plain trivial
    · exact hview.1
    · cases request.sinceId <;> exact each_of_plain trivial
    · exact hown.1
  · have hstart : size ((request.start.map fun t =>
        Predicate.compare .dateEntered .ge (.time t)).getD .always) = 4 := by
      cases request.start <;> simp [size]
    have hsince : size ((request.sinceId.map fun id =>
        Predicate.compare .entryId .gt (.int id)).getD .always) = 4 := by
      cases request.sinceId <;> simp [size]
    simp only [otherFilters, sizes, hstart, hsince]
    omega

/-- Without a search the store can always read by the filter of a plan. -/
theorem planFor_within (request : Request) (s : Selection) (heading : Heading) :
    (Scan.Condition.ofPredicate (e.planFor ctx request s heading none).query.filter).Within := by
  have hparts := e.otherFilters_plain ctx request s false
  change (Scan.Condition.ofPredicate
    (Predicate.all (.always :: e.otherFilters ctx request s false))).Within
  refine within_of_plain (each_plain_all fun p hp => ?_) ?_
  · rcases List.mem_cons.mp hp with rfl | hp
    · exact each_of_plain trivial
    · exact hparts.1 p hp
  · have hall := size_all_le (.always :: e.otherFilters ctx request s false)
    simp only [sizes, size] at hall
    omega

/-- The rows that are served from an offset on. -/
def page (request : Request) (offset : Int) : Except Failure (List Headline) :=
  (e.headlines ctx (request.fromOffset offset)).map Answer.rows

/-- How many rows are on a full page. -/
def pageSize (request : Request) : Nat := (e.limits.clamp request.page.limit).toNat

end Engine

theorem clamp_pos (limits : Limits) (n : Int) : 0 < limits.clamp n := by
  unfold Limits.clamp
  simp only
  split <;> omega

theorem Engine.pageSize_pos (e : Engine) (request : Request) : 0 < e.pageSize request := by
  have hlimit := clamp_pos e.limits request.page.limit
  unfold Engine.pageSize
  omega

theorem pageOf_eq_slice {α : Type} (rows : List α) {limit : Int} (h : 0 < limit) (offset : Int) :
    pageOf rows (some limit) (max offset 0) = slice limit.toNat offset.toNat rows := by
  have hoffset : (max offset 0).toNat = offset.toNat := by omega
  have hlimit : ¬limit < 0 := by omega
  simp only [pageOf, hoffset, if_neg hlimit, slice]

/-- All rows of a plan, in order. -/
def Plan.rows (p : Plan) (s : Store) : List Joined :=
  p.query.order.sort (s.matching p.query.owner p.query.allowArchived p.query.filter)

theorem rows_of_never {p : Plan} {s : Store} (h : p.query.filter.isNever) : p.rows s = [] := by
  simp [Plan.rows, Store.matching, eq_never h, admits_never, SortOrder.sort]

/-- The query of a plan for the rows from another offset on. -/
def Plan.queryFrom (p : Plan) (offset : Int) : ListingQuery :=
  { p.query with offset := max offset 0 }

namespace Engine

variable {e : Engine} {ctx : Context} {request : Request} {s : Selection} {p : Plan}

theorem plan_of_headlines {answer : Answer}
    (hs : Selection.ofAddress? request.feed request.isCategory request.includeChildren ctx.prefs =
      some s) (hplugin : s.pluginFeed? = none) (hok : e.headlines ctx request = .ok answer) :
    ctx.token.tripped = false ∧
      ∃ p, e.plan ctx request s = .ok p ∧ e.answerPlan ctx request p = .ok answer := by
  unfold headlines at hok
  by_cases htripped : ctx.token.tripped = true
  · simp [htripped] at hok
  · simp only [if_neg htripped, hs, hplugin] at hok
    refine ⟨by simpa using htripped, ?_⟩
    cases hplan : e.plan ctx request s with
    | error f => simp [hplan, Except.bind] at hok
    | ok p => exact ⟨p, rfl, by simpa [hplan, Except.bind] using hok⟩

/-- With the guard skipped a request is answered with the rows of its plan. -/
theorem headlines_fromOffset (h : Store.Sound e.store) (hclear : ctx.token.tripped = false)
    (hs : Selection.ofAddress? request.feed request.isCategory request.includeChildren ctx.prefs =
      some s) (hplugin : s.pluginFeed? = none) (hplan : e.plan ctx request s = .ok p)
    (offset : Int) :
    e.headlines ctx (request.fromOffset offset) = e.fetch ctx (p.queryFrom offset) (outline p) := by
  obtain ⟨heading, search, hheading, hsearch, rfl⟩ := (plan_ok_iff h hclear hs hplugin).mp hplan
  have hs' : Selection.ofAddress? (request.fromOffset offset).feed
      (request.fromOffset offset).isCategory (request.fromOffset offset).includeChildren
      ctx.prefs = some s := hs
  have hplan' : e.plan ctx (request.fromOffset offset) s =
      .ok (e.planFor ctx (request.fromOffset offset) s heading search) :=
    (plan_ok_iff h hclear hs' hplugin).mpr ⟨heading, search, hheading, hsearch, rfl⟩
  have hguard : (e.planFor ctx (request.fromOffset offset) s heading search).isGuarded
      (request.fromOffset offset) = false := by
    simp [Plan.isGuarded, Request.fromOffset]
  simp only [headlines, hclear, hs', hplugin, hplan', Except.bind, answerPlan, hguard,
    Bool.false_eq_true, if_false]
  rfl

theorem plan_of_page (h : Store.Sound e.store)
    (hs : Selection.ofAddress? request.feed request.isCategory request.includeChildren ctx.prefs =
      some s) (hplugin : s.pluginFeed? = none) {offset : Int} {served : List Headline}
    (hserved : e.page ctx request offset = .ok served) :
    ctx.token.tripped = false ∧ ∃ p, e.plan ctx request s = .ok p := by
  have hs' : Selection.ofAddress? (request.fromOffset offset).feed
      (request.fromOffset offset).isCategory (request.fromOffset offset).includeChildren
      ctx.prefs = some s := hs
  unfold page at hserved
  cases hanswer : e.headlines ctx (request.fromOffset offset) with
  | error f => rw [hanswer] at hserved; cases hserved
  | ok answer =>
    obtain ⟨hclear, p, hplan, -⟩ := plan_of_headlines hs' hplugin hanswer
    obtain ⟨heading, search, hheading, hsearch, -⟩ := (plan_ok_iff h hclear hs' hplugin).mp hplan
    exact ⟨hclear, _, (plan_ok_iff h hclear hs hplugin).mpr
      ⟨heading, search, hheading, hsearch, rfl⟩⟩

theorem pageOf_queryFrom (h : Store.Sound e.store) (hclear : ctx.token.tripped = false)
    (hs : Selection.ofAddress? request.feed request.isCategory request.includeChildren ctx.prefs =
      some s) (hplugin : s.pluginFeed? = none) (hplan : e.plan ctx request s = .ok p)
    (offset : Int) :
    pageOf (e.store.listing (p.queryFrom offset)) (p.queryFrom offset).limit
        (p.queryFrom offset).offset =
      slice (e.pageSize request) offset.toNat
        ((p.rows e.store).map fun r => r.headline request.includeContent) := by
  obtain ⟨heading, search, hheading, hsearch, rfl⟩ := (plan_ok_iff h hclear hs hplugin).mp hplan
  rw [Store.listing_eq h]
  exact pageOf_eq_slice _ (clamp_pos e.limits request.page.limit) offset

/-- A page is a part of the rows of the plan, unless the store meets a fault on the way. -/
theorem page_eq (h : Store.Sound e.store) (hclear : ctx.token.tripped = false)
    (hs : Selection.ofAddress? request.feed request.isCategory request.includeChildren ctx.prefs =
      some s) (hplugin : s.pluginFeed? = none) (hplan : e.plan ctx request s = .ok p)
    (offset : Int) :
    e.page ctx request offset =
      if p.query.filter.isNever then .ok []
      else match e.store.fault? p.query.owner p.query.allowArchived p.query.filter
          (p.queryFrom offset).purpose with
        | some f => .error (.store f)
        | none => .ok (slice (e.pageSize request) offset.toNat
            ((p.rows e.store).map fun r => r.headline request.includeContent)) := by
  have hfilter : (p.queryFrom offset).filter = p.query.filter := rfl
  rw [page, headlines_fromOffset h hclear hs hplugin hplan, fetch, hfilter]
  by_cases hnever : p.query.filter.isNever = true
  · rw [if_pos hnever, if_pos hnever]
    rfl
  · rw [if_neg hnever, if_neg hnever, if_neg (by simp [hclear])]
    simp only [reads, Store.under, GuardedStore.headlines, CancelToken.guarded, hclear,
      Store.headlines, pageOf_queryFrom h hclear hs hplugin hplan]
    simp only [Plan.queryFrom]
    cases e.store.fault? _ _ _ _ <;> rfl

theorem served_eq (h : Store.Sound e.store) (hclear : ctx.token.tripped = false)
    (hs : Selection.ofAddress? request.feed request.isCategory request.includeChildren ctx.prefs =
      some s) (hplugin : s.pluginFeed? = none) (hplan : e.plan ctx request s = .ok p)
    {offset : Int} {served : List Headline} (hserved : e.page ctx request offset = .ok served) :
    served = slice (e.pageSize request) offset.toNat
      ((p.rows e.store).map fun r => r.headline request.includeContent) := by
  rw [page_eq h hclear hs hplugin hplan] at hserved
  by_cases hnever : p.query.filter.isNever = true
  · rw [if_pos hnever] at hserved
    rw [rows_of_never hnever, ← Except.ok.inj hserved]
    simp [slice]
  · rw [if_neg hnever] at hserved
    cases hf : e.store.fault? p.query.owner p.query.allowArchived p.query.filter
        (p.queryFrom offset).purpose with
    | some f => simp [hf] at hserved
    | none =>
      rw [hf] at hserved
      exact (Except.ok.inj hserved).symm

theorem page_of_within (h : Store.Sound e.store) (hclear : ctx.token.tripped = false)
    (hs : Selection.ofAddress? request.feed request.isCategory request.includeChildren ctx.prefs =
      some s) (hplugin : s.pluginFeed? = none) (hplan : e.plan ctx request s = .ok p)
    (hw : (Scan.Condition.ofPredicate p.query.filter).Within) (offset : Int) :
    e.page ctx request offset = .ok (slice (e.pageSize request) offset.toNat
      ((p.rows e.store).map fun r => r.headline request.includeContent)) := by
  rw [page_eq h hclear hs hplugin hplan]
  by_cases hnever : p.query.filter.isNever = true
  · rw [if_pos hnever, rows_of_never hnever]
    simp [slice]
  · rw [if_neg hnever, e.store.fault_of_within _ _ hw]

end Engine

end Newsfeed
