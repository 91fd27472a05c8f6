import Newsfeed.Proofs.Listing.Pages
import Newsfeed.Proofs.Predicate.Negation
import Newsfeed.Proofs.Sql.Faithful

/-!
Filters in their simplest forms say the same as what they were made of, to the database too. A
filter that has been simplified to `never` need not be run: the rows that it would be answered with
are none.
-/

namespace Newsfeed

open Predicate Sql

/-- Two negations take each other back where it is known what is negated. -/
theorem Predicate.truth_negate_negate {p : Predicate} {row : Facts} (h : p.truth row ≠ none) :
    p.negate.negate.truth row = p.truth row := by
  have hnegated := truth_negate h
  have hknown : p.negate.truth row ≠ none := by
    obtain ⟨b, hb⟩ := Option.ne_none_iff_exists'.mp h
    rw [hnegated, hb]
    exact Option.some_ne_none _
  rw [truth_negate hknown, hnegated, Truth.not_not]

namespace Sql

variable {s : Store} {ps : List Predicate}

/-- The condition of a simplified filter is to the database what its parts are together, or one
beside the other. -/
theorem means_simplified (h : s.Sound) (r : Joined) (hps : ∀ p ∈ ps, Each Runnable p) :
    (Expr.ofPredicate (all ps)).Means s r.scope
        ((ps.map (truth (s.facts r))).foldr Truth.and (some true)) ∧
      (Expr.ofPredicate (any ps)).Means s r.scope
        ((ps.map (truth (s.facts r))).foldr Truth.or (some false)) := by
  have hall := means_predicate h.index r (each_all trivial trivial hps)
  have hany := means_predicate h.index r (each_any trivial trivial hps)
  rw [truth_all, truthOfAll_eq] at hall
  rw [truth_any, truthOfAny_eq] at hany
  exact ⟨hall, hany⟩

end Sql

namespace Store

variable (s : Store)

theorem within_never : (Scan.Condition.ofPredicate .never).Within :=
  within_of_plain (each_of_plain trivial) (by simp [size])

theorem matching_never (owner : Int) (archived : Bool) : s.matching owner archived .never = [] := by
  simp [matching, admits_never]

/-- The rows of a conjunction are those of its simplest form. -/
theorem matching_conj (owner : Int) (archived : Bool) (parts : List Predicate) :
    s.matching owner archived (.conj parts) = s.matching owner archived (all parts) := by
  have hsame (row : Facts) : admits (.conj parts) row = admits (all parts) row := by
    rw [admits, admits, truth_all, truth]
  simp only [matching, hsame]

variable {q : ListingQuery}

theorem page_of_no_match (h : s.matching q.owner q.allowArchived q.filter = []) :
    pageOf (s.listing q) q.limit q.offset = [] := by
  have hlisting : s.listing q = [] := by
    simp [listing, h, SortOrder.sort]
  unfold pageOf
  cases q.limit <;> simp [hlisting]

/-- The database answers a filter that nothing passes with no rows. -/
theorem headlines_never (h : q.filter = .never) : s.headlines q = .ok [] := by
  have hrows := s.matching_never q.owner q.allowArchived
  rw [← h] at hrows
  rw [headlines, s.page_of_no_match hrows, h, s.fault_of_within _ _ within_never]

/-- And so it does when the parts of the filter are written out, unless it fails on one of them. -/
theorem headlines_written_out {parts : List Predicate} (hparts : all parts = .never)
    {rows : List Headline} (h : s.headlines { q with filter := .conj parts } = .ok rows) :
    rows = [] := by
  have hnone : s.matching q.owner q.allowArchived (.conj parts) = [] := by
    rw [matching_conj, hparts, matching_never]
  have hpage := s.page_of_no_match (q := { q with filter := .conj parts }) hnone
  unfold headlines at h
  split at h
  · cases h
  · rw [hpage] at h
    exact (Except.ok.inj h).symm

end Store

namespace Engine

variable {e : Engine} {ctx : Context} {request : Request} {s : Selection} {p : Plan}

theorem guard_never (hclear : ctx.token.tripped = false) {query : ListingQuery}
    (h : query.filter = .never) (page : Page) (minutes : Int) :
    e.guard ctx query page minutes = .ok ⟨none, false⟩ := by
  have hrecent (since : Time.Instant) : query.recentFilter since = .never := by
    rw [ListingQuery.recentFilter, h]
    rfl
  have hfirst (since : Time.Instant) : e.store.firstId? query since = .ok none := by
    rw [Store.firstId?, hrecent, e.store.find_of_within _ _ Store.within_never,
      Store.matching_never]
    simp [Except.map, SortOrder.sort]
  simp only [guard, reads, Store.under, GuardedStore.firstId?, CancelToken.guarded, hclear, hfirst]
  rfl

/-- A plan that nothing passes is answered with its outline. -/
theorem answerPlan_never (hclear : ctx.token.tripped = false) (h : p.query.filter = .never) :
    e.answerPlan ctx request p = .ok (outline p) := by
  have hfetch (answer : Answer) : e.fetch ctx p.query answer = .ok answer := by
    rw [fetch, h, isNever, if_pos rfl]
  unfold answerPlan
  split
  · rw [guard_never hclear h]
    exact hfetch _
  · exact hfetch _

theorem reads_headlines (hclear : ctx.token.tripped = false) (query : ListingQuery) :
    (e.reads ctx).headlines query = (e.store.headlines query).mapError .store := by
  simp [reads, Store.under, GuardedStore.headlines, CancelToken.guarded, hclear]

/-- A filter in its simplest form is true of a row where all its parts are, or one of them, null
included; and the opposite of a filter that is true or false of a row is the other, twice over. So a
plan whose filter came out as `never` may leave its query alone: the answer is the same with the
rows that the query has, and those that the parts of the filter have unless they fail. -/
theorem simplest_forms_keep_meaning :
    (∀ (ps : List Predicate) (row : Facts),
      (all ps).truth row = (ps.map (truth row)).foldr Truth.and (some true) ∧
        (any ps).truth row = (ps.map (truth row)).foldr Truth.or (some false)) ∧
    (∀ (p : Predicate) (row : Facts), p.truth row ≠ none →
      p.negate.truth row = (p.truth row).not ∧ p.negate.negate.truth row = p.truth row) ∧
    (∀ (s : Store) (r : Joined), s.Sound →
      (∀ ps : List Predicate, (∀ p ∈ ps, Each Runnable p) →
        (Expr.ofPredicate (all ps)).Means s r.scope
            ((ps.map (truth (s.facts r))).foldr Truth.and (some true)) ∧
          (Expr.ofPredicate (any ps)).Means s r.scope
            ((ps.map (truth (s.facts r))).foldr Truth.or (some false))) ∧
      ∀ p : Predicate, Each Runnable p → p.truth (s.facts r) ≠ none →
        (Expr.ofPredicate p.negate).Means s r.scope (p.truth (s.facts r)).not) ∧
    ∀ (e : Engine) (ctx : Context) (request : Request) (s : Selection) (p : Plan),
      Selection.ofAddress? request.feed request.isCategory request.includeChildren ctx.prefs =
        some s →
      s.pluginFeed? = none → e.plan ctx request s = .ok p → p.query.filter.isNever →
        e.headlines ctx request = .ok (outline p) ∧
          (((e.reads ctx).headlines p.query).map fun rows => { outline p with rows }) =
            .ok (outline p) ∧
          ∀ parts rows, all parts = p.query.filter →
            (e.reads ctx).headlines { p.query with filter := .conj parts } = .ok rows →
            rows = (outline p).rows := by
  refine ⟨?simplified, ?negated, ?database, ?answers⟩
  case simplified =>
    intro ps row
    rw [truth_all, truth_any, truthOfAll_eq, truthOfAny_eq]
    exact ⟨rfl, rfl⟩
  case negated =>
    intro p row h
    exact ⟨truth_negate h, truth_negate_negate h⟩
  case database =>
    intro s r h
    refine ⟨fun ps => means_simplified h r, fun p hrun hknown => ?_⟩
    have hbasic (a : Predicate) (ha : IsBasic a) : Runnable a :=
      runnable_of_worded (worded_of_basic ha)
    rw [← truth_negate hknown]
    exact means_predicate h.index r (each_negate hbasic hrun)
  case answers =>
    intro e ctx request s p hs hplugin hplan hnever
    have hclear := clear_of_plan hplan
    have hfilter := eq_never hnever
    refine ⟨?_, ?_, fun parts rows hparts hrows => ?_⟩
    · simp only [headlines, hclear, hs, hplugin, hplan, Bool.false_eq_true, if_false]
      exact answerPlan_never hclear hfilter
    · rw [reads_headlines hclear, Store.headlines_never _ hfilter]
      rfl
    · rw [reads_headlines hclear] at hrows
      cases hstored : e.store.headlines { p.query with filter := .conj parts } with
      | error f =>
        rw [hstored] at hrows
        cases hrows
      | ok served =>
        rw [hstored] at hrows
        obtain rfl : served = rows := Except.ok.inj hrows
        exact e.store.headlines_written_out (hparts.trans hfilter) hstored

/-- A search in a label that nobody has. -/
def inNoLabel : Request := { Request.plain (.id (-4)) with search := some "label:none" }

def titledA : Predicate := .contains .title "A"

/-- Has a title with an a, or has no author with one. -/
def titledOrNot : List Predicate := [.never, titledA, .no (.contains .author "a")]

/-- The articles have no author, so of the one without the title nothing is known by the
disjunction, where its title alone is known not to be there. The search has no rows, though it is
not run. -/
theorem simplest_forms_of_twin_articles :
    twinEngine.store.Sound ∧ (∀ p ∈ titledOrNot, Each Runnable p) ∧
    (twinEngine.store.joined true).map
      (fun r => (any titledOrNot).truth (twinEngine.store.facts r)) = [some true, none] ∧
    (∀ r ∈ twinEngine.store.joined true, titledA.truth (twinEngine.store.facts r) ≠ none ∧
      titledA.negate.negate.truth (twinEngine.store.facts r) =
        titledA.truth (twinEngine.store.facts r) ∧
      (Expr.ofPredicate titledA.negate).Means twinEngine.store r.scope
        (titledA.truth (twinEngine.store.facts r)).not ∧
      (Expr.ofPredicate (any titledOrNot)).Means twinEngine.store r.scope
        ((titledOrNot.map (truth (twinEngine.store.facts r))).foldr Truth.or (some false))) ∧
    ∃ p, twinEngine.plan twinContext inNoLabel
        (Selection.ofReference (.special .all) false false .standard) = .ok p ∧
      p.query.filter.isNever ∧ twinEngine.headlines twinContext inNoLabel = .ok (outline p) := by
  obtain ⟨-, hnegated, hdatabase, hanswers⟩ := simplest_forms_keep_meaning
  have hsound : twinEngine.store.Sound := Store.Reachable.sound ⟨twinArticles, rfl⟩
  have htitled : Each Runnable titledA := (each_atom (a := titledA) trivial).mpr rfl
  have hrun : ∀ p ∈ titledOrNot, Each Runnable p := by
    intro p hp
    simp only [titledOrNot, List.mem_cons, List.not_mem_nil, or_false] at hp
    rcases hp with rfl | rfl | rfl
    · exact (each_atom (a := .never) trivial).mpr trivial
    · exact htitled
    · intro a ha
      obtain rfl := List.mem_singleton.mp ha
      rfl
  refine ⟨hsound, hrun, by decide +kernel, fun r hr => ?_, ?_⟩
  · have hknown : ∀ r ∈ twinEngine.store.joined true,
        titledA.truth (twinEngine.store.facts r) ≠ none := by decide +kernel
    obtain ⟨hlists, hopposite⟩ := hdatabase _ r hsound
    exact ⟨hknown r hr, (hnegated _ _ (hknown r hr)).2, hopposite _ htitled (hknown r hr),
      (hlists _ hrun).2⟩
  · have hplanned : (twinEngine.plan twinContext inNoLabel
        (Selection.ofReference (.special .all) false false .standard)).map
          (fun p => p.query.filter.isNever) = .ok true := by decide +kernel
    obtain ⟨p, hplan, hnever⟩ := exists_of_map hplanned
    exact ⟨p, hplan, hnever, (hanswers _ _ _ _ p rfl rfl hplan hnever).1⟩

end Engine

end Newsfeed
