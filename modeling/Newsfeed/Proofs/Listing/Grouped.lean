import Newsfeed.Proofs.Listing.Pages

/-!
The preference to gather rows by feed. It changes in which order the rows of a request are listed
and nothing else, and in the new order rows of one group stand together, among themselves as they
stood before.
-/

namespace Newsfeed

open Std

section Runs

variable {α : Type} {cmp : α → α → Ordering} [TransCmp cmp] {a : α} {xs : List α}

/-- In a list that is sorted from something on, what compares equal to it comes first. -/
theorem filter_front (hsorted : xs.Pairwise fun x y => (cmp x y).isLE)
    (hfrom : ∀ x ∈ xs, (cmp a x).isLE) : (xs.filter fun x => cmp a x = .eq) <+: xs := by
  induction xs with
  | nil => exact List.prefix_rfl
  | cons x xs ih =>
    obtain ⟨hbehind, hrest⟩ := List.pairwise_cons.mp hsorted
    by_cases hx : cmp a x = .eq
    · rw [List.filter_cons_of_pos (by simpa using hx)]
      exact (List.prefix_cons_inj x).mpr
        (ih hrest fun y hy => hfrom y (List.mem_cons_of_mem x hy))
    · have hlt : cmp a x = .lt := by
        have hle := hfrom x List.mem_cons_self
        cases hcmp : cmp a x with
        | lt => rfl
        | eq => exact absurd hcmp hx
        | gt => simp [hcmp] at hle
      have hnone : (x :: xs).filter (fun x => cmp a x = .eq) = [] := by
        refine List.filter_eq_nil_iff.mpr fun y hy => ?_
        rcases List.mem_cons.mp hy with rfl | hy
        · simp [hlt]
        · simp [TransCmp.lt_of_lt_of_isLE hlt (hbehind y hy)]
      rw [hnone]
      exact List.nil_prefix

/-- In a sorted list what compares equal stands together. -/
theorem filter_infix (hsorted : xs.Pairwise fun x y => (cmp x y).isLE) (a : α) :
    (xs.filter fun x => cmp a x = .eq) <:+: xs := by
  induction xs with
  | nil => exact List.infix_rfl
  | cons x xs ih =>
    obtain ⟨hbehind, hrest⟩ := List.pairwise_cons.mp hsorted
    by_cases hx : cmp a x = .eq
    · refine (filter_front hsorted fun y hy => ?_).isInfix
      have hle : (cmp a x).isLE := by simp [hx]
      rcases List.mem_cons.mp hy with rfl | hy
      · exact hle
      · exact TransCmp.isLE_trans hle (hbehind y hy)
    · rw [List.filter_cons_of_neg (by simpa using hx)]
      exact (ih hrest).trans (List.suffix_cons x xs).isInfix

end Runs

/-- The rows that pass a test stand together in one list, and among themselves as in the other. -/
def Together {α : Type} (test : α → Bool) (before after : List α) : Prop :=
  after.filter test = before.filter test ∧ after.filter test <:+: after

theorem Together.map {α β : Type} {f : α → β} {test : β → Bool} {before after : List α}
    (h : Together (test ∘ f) before after) : Together test (before.map f) (after.map f) := by
  obtain ⟨hsame, hinfix⟩ := h
  simp only [Together, List.filter_map, hsame, true_and]
  rw [← hsame]
  exact hinfix.map f

/-- What the keys by which rows are gathered make of a listing. -/
inductive Clustered (before after : List Headline) : List SortKey → Prop
  /-- Without keys it stays as it is. -/
  | unchanged (h : after = before) : Clustered before after []
  | byTitle (h : ∀ title, Together (fun r => r.feedTitle = title) before after) :
    Clustered before after [⟨.feedTitle, .asc⟩]
  | byWeek (weeks : Direction)
    (h : ∀ week title, Together (fun r => r.yearWeek = week ∧ r.feedTitle = title) before after) :
    Clustered before after [⟨.yearWeek, weeks⟩, ⟨.feedTitle, .asc⟩]

theorem Cell.eq_of_sortOrder {a b : Cell} : a.sortOrder b = .eq ↔ a = b := by
  cases a <;> cases b <;> simp [sortOrder]

theorem Cell.ofText_inj {a b : Option String} : Cell.ofText? a = Cell.ofText? b ↔ a = b := by
  cases a <;> cases b <;> simp [ofText?]

namespace SortOrder

/-- The order in which rows are first gathered by the keys. -/
def gather (o : SortOrder) (keys : List SortKey) : SortOrder := { o with keys := keys ++ o.keys }

variable {o : SortOrder} {keys : List SortKey} {rows : List Joined}

theorem compareKeys_append (a b : Joined) (ks ls : List SortKey) :
    compareKeys a b (ks ++ ls) = (compareKeys a b ks).then (compareKeys a b ls) := by
  induction ks with
  | nil => rfl
  | cons k ks ih => rw [List.cons_append, compareKeys, compareKeys, ih, Ordering.then_assoc]

theorem compareRows_gather (a b : Joined) :
    (o.gather keys).compareRows a b = (compareKeys a b keys).then (o.compareRows a b) := by
  rw [compareRows, gather, compareKeys_append, Ordering.then_assoc, compareRows]

theorem compareKeys_eq {a b : Joined} :
    compareKeys a b keys = .eq ↔ ∀ k ∈ keys, a.sortCell k.column = b.sortCell k.column := by
  induction keys with
  | nil => simp [compareKeys]
  | cons k ks ih =>
    rw [compareKeys, Ordering.then_eq_eq, apply_eq, Cell.eq_of_sortOrder, ih, List.forall_mem_cons]

/-- Rows that the keys do not tell apart are sorted as they were without the keys. -/
theorem sort_gather (h : Distinct rows)
    (hsame : ∀ a ∈ rows, ∀ b ∈ rows, compareKeys a b keys = .eq) :
    (o.gather keys).sort rows = o.sort rows := by
  have hperm := (o.gather keys).sort_perm rows
  have hsorted : ((o.gather keys).sort rows).Pairwise fun a b => o.compareRows a b = .lt := by
    refine ((o.gather keys).sort_strict h).imp_of_mem fun ha hb hlt => ?_
    rwa [compareRows_gather, hsame _ (hperm.mem_iff.mp ha) _ (hperm.mem_iff.mp hb)] at hlt
  exact o.eq_of_strict (hperm.trans (o.sort_perm rows).symm) hsorted (o.sort_strict h)

theorem isLE_of_gather {a b : Joined} (h : (o.gather keys).compareRows a b ≠ .gt) :
    (compareKeys a b keys).isLE := by
  rw [compareRows_gather] at h
  cases hkeys : compareKeys a b keys with
  | lt => rfl
  | eq => rfl
  | gt => simp [hkeys] at h

theorem sort_gather_pairwise (rows : List Joined) :
    ((o.gather keys).sort rows).Pairwise fun a b => (compareKeys a b keys).isLE :=
  ((o.gather keys).sort_pairwise rows).imp isLE_of_gather

/-- For this it is enough that the keys tell which rows pass, once one is known that does. -/
theorem together_sort (h : Distinct rows) {test : Joined → Bool}
    (htest : ∀ a b, test a → (test b ↔ compareKeys a b keys = .eq)) :
    Together test (o.sort rows) ((o.gather keys).sort rows) := by
  have hkept : Distinct (rows.filter test) := h.sublist (List.filter_sublist.map _)
  refine ⟨?_, ?_⟩
  · rw [← sort_filter _ h, ← sort_filter _ h]
    refine sort_gather hkept fun a ha b hb => ?_
    exact (htest a b (List.mem_filter.mp ha).2).mp (List.mem_filter.mp hb).2
  · by_cases hrow : ∃ a, test a
    · obtain ⟨a, ha⟩ := hrow
      have hclass : test = fun b => decide (compareKeys a b keys = .eq) := by
        funext b
        rw [Bool.eq_iff_iff, htest a b ha, decide_eq_true_iff]
      rw [hclass]
      exact filter_infix (sort_gather_pairwise rows) a
    · have hnone : ((o.gather keys).sort rows).filter test = [] :=
        List.filter_eq_nil_iff.mpr fun a _ ha => hrow ⟨a, ha⟩
      rw [hnone]
      exact List.nil_infix

/-- Rows without a feed, or with one that has no title, are a group of their own. -/
theorem together_by_title (h : Distinct rows) (content : Bool) (title : Option String) :
    Together (fun h => h.feedTitle = title) ((o.sort rows).map fun r => r.headline content)
      (((o.gather [⟨.feedTitle, .asc⟩]).sort rows).map fun r => r.headline content) := by
  refine (together_sort h fun a b ha => ?_).map
  have htitle : a.feed.bind Feed.title = title := of_decide_eq_true ha
  have hkeys : compareKeys a b [⟨.feedTitle, .asc⟩] = .eq ↔
      a.feed.bind Feed.title = b.feed.bind Feed.title := by
    simp [compareKeys_eq, Joined.sortCell, Cell.ofText_inj]
  rw [hkeys, htitle, eq_comm (a := title)]
  exact decide_eq_true_iff

theorem together_by_week (h : Distinct rows) (content : Bool) (weeks : Direction)
    (week title : Option String) :
    Together (fun h => h.yearWeek = week ∧ h.feedTitle = title)
      ((o.sort rows).map fun r => r.headline content)
      (((o.gather [⟨.yearWeek, weeks⟩, ⟨.feedTitle, .asc⟩]).sort rows).map fun r =>
        r.headline content) := by
  refine (together_sort h fun a b ha => ?_).map
  obtain ⟨hweek, htitle⟩ : Time.weekText? a.article.dateEntered = week ∧
    a.feed.bind Feed.title = title := of_decide_eq_true ha
  have hkeys : compareKeys a b [⟨.yearWeek, weeks⟩, ⟨.feedTitle, .asc⟩] = .eq ↔
      Time.weekText? a.article.dateEntered = Time.weekText? b.article.dateEntered ∧
        a.feed.bind Feed.title = b.feed.bind Feed.title := by
    simp [compareKeys_eq, Joined.sortCell, Cell.ofText_inj]
  rw [hkeys, hweek, htitle, eq_comm (a := week), eq_comm (a := title)]
  exact decide_eq_true_iff

end SortOrder

/-- The context with the preference to gather rows by feed, or without it. -/
def Context.grouping (ctx : Context) (on : Bool) : Context :=
  { ctx with prefs := { ctx.prefs with groupByFeed := on } }

namespace Selection

/-- The keys by which the rows are gathered where the owner wants it. -/
def gathering (s : Selection) (orderBy : String) (override : Option SortOrder) : List SortKey :=
  let weeks : Direction := if Text.trim orderBy = "date_reverse" then .asc else .desc
  if s.isVirtual && !(s.baseOrder orderBy override).ungrouped then s.groupKeys weeks else []

theorem orderFor_grouping (s : Selection) (orderBy : String) (prefs : Preferences)
    (override : Option SortOrder) (on : Bool) :
    s.orderFor orderBy { prefs with groupByFeed := on } override =
      (s.baseOrder orderBy override).gather (if on then s.gathering orderBy override else []) := by
  unfold orderFor gathering
  cases on with
  | false => rfl
  | true =>
    by_cases hvirtual : s.isVirtual && !(s.baseOrder orderBy override).ungrouped
    · simp only [Bool.true_and, hvirtual, if_true]
      rfl
    · simp only [Bool.true_and, hvirtual, Bool.false_eq_true, if_false, if_true]
      rfl

theorem gathering_cases (s : Selection) (orderBy : String) (override : Option SortOrder) :
    s.gathering orderBy override = [] ∨
      s.gathering orderBy override = [⟨.feedTitle, .asc⟩] ∨
      ∃ weeks, s.gathering orderBy override = [⟨.yearWeek, weeks⟩, ⟨.feedTitle, .asc⟩] := by
  unfold gathering groupKeys
  simp only
  split
  · split <;> simp
  · exact .inl rfl

end Selection

namespace Engine

variable {e : Engine} {ctx : Context} {request : Request} {s : Selection} {p : Plan} {on : Bool}

theorem addTokens_grouping (labels : Search.LabelLookup) (parts : Search.Parts)
    (ts : List Search.Token) : Search.addTokens (ctx.grouping on) labels parts ts =
      Search.addTokens ctx labels parts ts := by
  induction ts generalizing parts with
  | nil => rfl
  | cons t ts ih =>
    have htoken : Search.addToken (ctx.grouping on) labels parts t =
        Search.addToken ctx labels parts t := rfl
    rw [Search.addTokens, htoken, Search.addTokens]
    exact congrArg _ (funext ih)

/-- Only a plugin could make the meaning of a search depend on the preference. -/
theorem searchFor_grouping (hclear : ctx.token.tripped = false)
    (hsearch : ∀ text, searchText? request = some text →
      e.plugins.searchFor? text (ctx.grouping on) = e.plugins.searchFor? text ctx) :
    e.searchFor (ctx.grouping on) request = e.searchFor ctx request := by
  unfold searchFor
  cases htext : searchText? request with
  | none => rfl
  | some text =>
    have hmeaning : e.meaningOf (ctx.grouping on) text request.searchLanguage =
        e.meaningOf ctx text request.searchLanguage := by
      have hlabels : e.labelLookup (ctx.grouping on) = e.labelLookup ctx := rfl
      unfold meaningOf
      rw [hsearch text htext, hlabels]
      simp only [Search.compile, addTokens_grouping]
      rfl
    have hclear' : (ctx.grouping on).token.tripped = false := hclear
    simp only [compileSearch_eq hclear, compileSearch_eq hclear', hmeaning]
    rfl

/-- The order of a request before its rows are gathered, and the keys by which they are. -/
def baseOrder (e : Engine) (request : Request) (s : Selection) : SortOrder :=
  s.baseOrder request.orderBy (e.plugins.orderFor? request.orderBy)

def gathering (e : Engine) (request : Request) (s : Selection) : List SortKey :=
  s.gathering request.orderBy (e.plugins.orderFor? request.orderBy)

theorem rows_grouping (heading : Heading) (search : Option CompiledSearch) :
    (e.planFor (ctx.grouping on) request s heading search).rows e.store =
      ((e.baseOrder request s).gather (if on then e.gathering request s else [])).sort
        (e.store.matching ctx.owner s.allowArchived
          (e.planFor ctx request s heading search).query.filter) := by
  rw [baseOrder, gathering, ← Selection.orderFor_grouping s request.orderBy ctx.prefs]
  rfl

/-- With the preference and without it a request has the same heading and search, or fails on
them. -/
theorem plan_grouping (h : Store.Sound e.store) (hclear : ctx.token.tripped = false)
    (hs : Selection.ofAddress? request.feed request.isCategory request.includeChildren ctx.prefs =
      some s) (hplugin : s.pluginFeed? = none)
    (hsearch : ∀ on text, searchText? request = some text →
      e.plugins.searchFor? text (ctx.grouping on) = e.plugins.searchFor? text ctx) :
    (∃ f, ∀ on, e.plan (ctx.grouping on) request s = .error f) ∨
      ∃ heading search, ∀ on, e.plan (ctx.grouping on) request s =
        .ok (e.planFor (ctx.grouping on) request s heading search) := by
  have hplan (on : Bool) : e.plan (ctx.grouping on) request s =
      (e.describe ctx s request.isCategory).bind fun heading =>
        (e.searchFor ctx request).map (e.planFor (ctx.grouping on) request s heading) := by
    rw [← searchFor_grouping hclear (hsearch on)]
    exact plan_eq h hclear hs hplugin
  simp only [hplan]
  cases e.describe ctx s request.isCategory with
  | error f => exact .inl ⟨f, fun on => rfl⟩
  | ok heading =>
    cases e.searchFor ctx request with
    | error f => exact .inl ⟨f, fun on => rfl⟩
    | ok search => exact .inr ⟨heading, search, fun on => rfl⟩

theorem clustered_of_gathering (e : Engine) (request : Request) (s : Selection)
    {rows : List Joined} (h : SortOrder.Distinct rows) :
    Clustered
      (((e.baseOrder request s).sort rows).map fun r => r.headline request.includeContent)
      ((((e.baseOrder request s).gather (e.gathering request s)).sort rows).map fun r =>
        r.headline request.includeContent)
      (e.gathering request s) := by
  rcases s.gathering_cases request.orderBy (e.plugins.orderFor? request.orderBy) with
    hkeys | hkeys | ⟨weeks, hkeys⟩
  · rw [gathering, hkeys]
    exact .unchanged rfl
  · rw [gathering, hkeys]
    exact .byTitle fun title => SortOrder.together_by_title h _ title
  · rw [gathering, hkeys]
    exact .byWeek weeks fun week title => SortOrder.together_by_week h _ weeks week title

/-- Turning the preference to gather rows by feed on changes the order of a request's rows and
nothing else. Where there are keys to gather them by, the rows of one feed title, or of one week and
feed title if the weeks are gathered too, stand together, among themselves as without the
preference. A request that cannot be planned fails with it as without it. -/
theorem grouping_only_gathers (e : Engine) (ctx : Context) (request : Request)
    (hreach : e.store.Reachable)
    (hplugin : ∀ id, Reference.ofAddress? request.feed request.isCategory ≠ some (.plugin id))
    (hsearch : ∀ on text, searchText? request = some text →
      e.plugins.searchFor? text (ctx.grouping on) = e.plugins.searchFor? text ctx) :
    ((∀ on s p, Selection.ofAddress? request.feed request.isCategory request.includeChildren
        ctx.prefs = some s → e.plan (ctx.grouping on) request s ≠ .ok p) ∧
      ∃ f, ∀ on offset, e.page (ctx.grouping on) request offset = .error f) ∨
    ∃ s p p' rows rows', e.Pages (ctx.grouping false) request s p rows ∧
      e.Pages (ctx.grouping true) request s p' rows' ∧ rows'.Perm rows ∧
      Clustered (rows.map fun r => r.headline request.includeContent)
        (rows'.map fun r => r.headline request.includeContent) (e.gathering request s) := by
  have h := hreach.sound
  by_cases htripped : ctx.token.tripped = true
  · have htripped' (on : Bool) : (ctx.grouping on).token.tripped = true := htripped
    refine .inl ⟨?_, .cancelled, fun on => page_of_tripped (htripped' on)⟩
    intro on s p _ hplan
    exact absurd (clear_of_plan hplan) (by simp [htripped'])
  · have hclear : ctx.token.tripped = false := by simpa using htripped
    have hclear' (on : Bool) : (ctx.grouping on).token.tripped = false := hclear
    have hsame (on : Bool) : Selection.ofAddress? request.feed request.isCategory
        request.includeChildren (ctx.grouping on).prefs = Selection.ofAddress? request.feed
          request.isCategory request.includeChildren ctx.prefs := rfl
    cases hs : Selection.ofAddress? request.feed request.isCategory request.includeChildren
        ctx.prefs with
    | none =>
      exact .inl ⟨by simp, .unresolved request.feed.text, fun on =>
        page_of_unresolved (hclear' on) ((hsame on).trans hs)⟩
    | some s =>
      have hnone := pluginFeed_of_reference hplugin hs
      rcases plan_grouping h hclear hs hnone hsearch with ⟨f, hf⟩ | ⟨heading, search, hplan⟩
      · refine .inl ⟨?_, f, fun on =>
          page_of_no_plan h (hclear' on) ((hsame on).trans hs) hnone (hf on)⟩
        intro on s' p hs' hplan
        rw [← Option.some.inj hs', hf] at hplan
        cases hplan
      · have hpages (on : Bool) := pages_of_plan h ((hsame on).trans hs) hnone (hplan on)
        simp only [rows_grouping] at hpages
        exact .inr ⟨s, _, _, _, _, hpages false, hpages true,
          (SortOrder.sort_perm _ _).trans (SortOrder.sort_perm _ _).symm,
          clustered_of_gathering e request s (Store.matching_distinct h _ _ _)⟩

/-- Three articles in two feeds; the one that arrived between the others is in the other feed. -/
def feedsEngine : Engine where
  store := Store.ofHistory
    [.addFeed ⟨1, "one", some "one", none, none, none, none⟩,
      .addFeed ⟨1, "two", some "two", none, none, none, none⟩,
      .arrival 1 (some 1) "a" 1715342400, .arrival 1 (some 2) "b" 1715342460,
      .arrival 1 (some 1) "c" 1715342520]
  plugins := .none
  limits := .standard

def inFirstFeed (h : Headline) : Bool :=
  h.yearWeek = some "2024-19" ∧ h.feedTitle = some "one"

/-- The two articles of the first feed come to stand side by side. -/
theorem grouping_of_two_feeds :
    (∀ id, Reference.ofAddress? allOneByOne.feed allOneByOne.isCategory ≠ some (.plugin id)) ∧
    (∀ on text, searchText? allOneByOne = some text →
      feedsEngine.plugins.searchFor? text (twinContext.grouping on) =
        feedsEngine.plugins.searchFor? text twinContext) ∧
    ∃ before after : List Headline, after.Perm before ∧ Together inFirstFeed before after ∧
      (after.filter inFirstFeed).length = 2 ∧
      (∀ offset, feedsEngine.page (twinContext.grouping false) allOneByOne offset =
        .ok (slice 1 offset.toNat before)) ∧
      ∀ offset, feedsEngine.page (twinContext.grouping true) allOneByOne offset =
        .ok (slice 1 offset.toNat after) := by
  have hreach : feedsEngine.store.Reachable := ⟨_, rfl⟩
  have h := hreach.sound
  have hplugin : ∀ id, Reference.ofAddress? allOneByOne.feed allOneByOne.isCategory ≠
      some (.plugin id) := by
    intro id hid
    cases hid
  have hsearch : ∀ on text, searchText? allOneByOne = some text →
      feedsEngine.plugins.searchFor? text (twinContext.grouping on) =
        feedsEngine.plugins.searchFor? text twinContext := fun on text _ => rfl
  refine ⟨hplugin, hsearch, ?_⟩
  rcases grouping_only_gathers feedsEngine twinContext allOneByOne hreach hplugin hsearch with
    ⟨-, f, hf⟩ | ⟨s, p, p', rows, rows', hpages, hpages', hperm, hclustered⟩
  · have hok : (feedsEngine.page (twinContext.grouping true) allOneByOne 0).isOk := by
      decide +kernel
    rw [hf true 0] at hok
    cases hok
  · obtain rfl : Selection.ofReference (.special .all) false false .standard = s :=
      Option.some.inj hpages.selected
    have hkeys : feedsEngine.gathering allOneByOne
        (.ofReference (.special .all) false false .standard) =
          [⟨.yearWeek, .desc⟩, ⟨.feedTitle, .asc⟩] := by decide +kernel
    have hfilter : p.query.filter = .always := by
      obtain ⟨heading, search, -, hsearch, rfl⟩ := (plan_ok_iff h rfl rfl rfl).mp hpages.planned
      obtain rfl : none = search := Except.ok.inj hsearch
      rfl
    have hall : rows.Perm (feedsEngine.store.matching 1 true .always) := hfilter ▸ hpages.perm h
    have htwo : (((feedsEngine.store.matching 1 true .always).map fun r =>
        r.headline false).filter inFirstFeed).length = 2 := by decide +kernel
    have hafter : (rows'.map fun r => r.headline false).Perm
        (rows.map fun r => r.headline false) := hperm.map _
    refine ⟨_, _, hafter, ?_, ?_,
      fun offset => hpages.served _ (.refl _) (hpages.within rfl) offset,
      fun offset => hpages'.served _ (.refl _) (hpages'.within rfl) offset⟩
    · rw [hkeys] at hclustered
      cases hclustered with
      | byWeek _ htogether => exact htogether (some "2024-19") (some "one")
    · rw [((hafter.trans (hall.map _)).filter inFirstFeed).length_eq]
      exact htwo

end Engine

end Newsfeed
