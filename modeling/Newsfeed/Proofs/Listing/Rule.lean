import Newsfeed.Proofs.Counters.Descent
import Newsfeed.Proofs.Listing.Serving
import Newsfeed.Proofs.Time.StoredOrder

/-!
What is listed of an owner's copies, said of the rows themselves: which of them a reference covers
and which of these a view shows. The filters of a plan let through these rows and no others.
-/

namespace Newsfeed

open Newsfeed.Time Predicate

/-- How a stored time may stand to an instant. -/
abbrev TimeOrder := String → Instant → Ordering → Prop

/-- By the text that the instant would be stored as. -/
def TimeOrder.byText : TimeOrder := fun stored t o => compare stored t.storedText = o

/-- By the whole second that was stored. -/
def TimeOrder.bySecond : TimeOrder := fun stored t o =>
  ∃ u : Instant, stored = u.storedText ∧ compare u.place t.place = o

namespace Store

/-- The way up from a category through those of an owner: the one at the top is so many steps
above. -/
inductive Above (s : Store) (owner top : Int) : Nat → Int → Prop
  | parent {c : Category} (hc : c ∈ s.categories) (howner : c.owner = owner)
      (hparent : c.parent = some top) : Above s owner top 1 c.id
  | step {c : Category} {k : Nat} {parent : Int} (hc : c ∈ s.categories) (howner : c.owner = owner)
      (hparent : c.parent = some parent) (h : Above s owner top k parent) :
      Above s owner top (k + 1) c.id

end Store

/-- Copies without a feed are listed under the reference. -/
def Reference.listsArchived : Reference → Bool
  | .label _ => true
  | .tag _ => true
  | .special f => f ≠ .fresh
  | _ => false

namespace Engine

/-- The row is one of those that the reference is about. -/
def Covers (e : Engine) (ctx : Context) (order : TimeOrder) (s : Selection) (r : Joined) : Prop :=
  match s.kind with
  | .feed id => r.copy.feed = some id
  | .category id => ∃ f category, r.feed = some f ∧ f.category = some category ∧
      (category = id ∨ (s.includeChildren ∧
        ∃ k ≤ e.limits.categoryDepth, e.store.Above ctx.owner id k category))
  | .uncategorized => ∃ f, r.feed = some f ∧ f.category = none
  | .labels => ∃ l ∈ e.store.labels, l.owner = ctx.owner ∧
      ⟨l.id, r.article.id⟩ ∈ e.store.labelings
  | .label id => ⟨id, r.article.id⟩ ∈ e.store.labelings
  | .tag name => ⟨ctx.owner, r.copy.id, name⟩ ∈ e.store.tags
  | .plugin _ => False
  | .special .starred => r.copy.marked
  | .special .published => r.copy.published
  | .special .fresh => r.copy.unread ∧ 0 ≤ r.article.score ∧
      order r.article.dateEntered (hoursBefore ctx.now ctx.prefs.freshHours) .gt
  | .special .all => True
  | .special .archived => r.copy.feed = none
  | .special .recentlyRead => r.copy.unread = false ∧ ∃ read, r.copy.lastRead = some read ∧
      order read (hoursBefore ctx.now e.limits.recentlyReadHours) .gt

/-- The adaptive view of a selection is that of its unread rows: it has some, and nothing is
searched for. -/
def PrefersUnread (e : Engine) (ctx : Context) (order : TimeOrder) (request : Request)
    (s : Selection) (searching : Bool) : Prop :=
  searching = false ∧ s.kind ≠ .special .starred ∧ s.isCounted request.isCategory ∧
    ∃ r, e.store.IsRow r ∧ (r.copy.feed ≠ none ∨ s.kind.countsArchived) ∧
      r.copy.owner = ctx.owner ∧ e.Covers ctx order s r ∧ r.copy.unread

/-- The row is one of those that the view shows. -/
def Shows (e : Engine) (ctx : Context) (order : TimeOrder) (request : Request) (s : Selection)
    (searching : Bool) (r : Joined) : Prop :=
  match request.viewMode with
  | .allArticles => True
  | .unread => s.kind = .special .recentlyRead ∨ r.copy.unread
  | .adaptive => e.PrefersUnread ctx order request s searching → r.copy.unread
  | .marked => r.copy.marked
  | .published => r.copy.published
  | .hasNote => ∃ note, r.copy.note = some note ∧ note ≠ ""

/-- Everything that is asked of a row in a listing. -/
structure Lists (e : Engine) (ctx : Context) (order : TimeOrder) (request : Request)
    (s : Selection) (search : Option CompiledSearch) (r : Joined) : Prop where
  row : e.store.IsRow r
  owner : r.copy.owner = ctx.owner
  covered : e.Covers ctx order s r
  live : r.copy.feed ≠ none ∨ s.kind.listsArchived
  shown : e.Shows ctx order request s search.isSome r
  sought : ∀ c, search = some c → c.predicate.admits (e.store.facts r)
  start : ∀ t, request.start = some t →
    order r.article.dateEntered t .gt ∨ order r.article.dateEntered t .eq
  since : ∀ id, request.sinceId = some id → id < r.article.id

end Engine

namespace Store

variable {s : Store} {owner top : Int}

theorem mem_links {depth : Nat} {id : Int} {parent : Option Int} :
    ⟨id, parent⟩ ∈ (CategoryForest.ofCategories (s.categoriesOfOwner owner) depth).links ↔
      ∃ c ∈ s.categories, c.owner = owner ∧ c.id = id ∧ c.parent = parent := by
  simp [CategoryForest.ofCategories, categoriesOfOwner, List.mem_mergeSort, and_assoc]

theorem above_iff {depth k : Nat} {id : Int} : s.Above owner top k id ↔
    (CategoryForest.ofCategories (s.categoriesOfOwner owner) depth).Climb top k id := by
  constructor
  · intro h
    induction h with
    | @parent c hc howner hparent => exact .one (mem_links.mpr ⟨c, hc, howner, rfl, hparent⟩)
    | @step c k parent hc howner hparent _ ih =>
      exact .more (mem_links.mpr ⟨c, hc, howner, rfl, hparent⟩) ih
  · intro h
    induction h with
    | one hlink =>
      obtain ⟨c, hc, howner, rfl, hparent⟩ := mem_links.mp hlink
      exact .parent hc howner hparent
    | more hlink _ ih =>
      obtain ⟨c, hc, howner, rfl, hparent⟩ := mem_links.mp hlink
      exact .step hc howner hparent ih

theorem forest_distinct (h : Sound s) (owner : Int) (depth : Nat) :
    (CategoryForest.ofCategories (s.categoriesOfOwner owner) depth).Distinct := by
  have hperm : (s.categoriesOfOwner owner).Perm (s.categories.filter fun c => c.owner = owner) :=
    List.mergeSort_perm _ _
  have hids : ((CategoryForest.ofCategories (s.categoriesOfOwner owner) depth).links.map
      CategoryLink.id) = (s.categoriesOfOwner owner).map Category.id := by
    simp [CategoryForest.ofCategories]
  rw [CategoryForest.Distinct, hids, (hperm.map Category.id).nodup_iff]
  exact h.categories.nodup.sublist (List.filter_sublist.map _)

/-- An owner's category with those below it. -/
theorem mem_branch (h : Sound s) (owner : Int) (depth : Nat) {id root : Int} :
    id ∈ root :: (CategoryForest.ofCategories (s.categoriesOfOwner owner) depth).descendants root ↔
      id = root ∨ ∃ k ≤ depth, s.Above owner root k id := by
  rw [CategoryForest.mem_branch (forest_distinct h owner depth)]
  exact or_congr_right (exists_congr fun k => and_congr_right fun _ => above_iff.symm)

end Store

namespace TimeOrder

variable {t u : Instant}

/-- A text with a plain year is that of one second. -/
theorem bySecond_iff (hu : u.HasPlainYear) (o : Ordering) :
    bySecond u.storedText t o ↔ compare u.place t.place = o := by
  constructor
  · rintro ⟨v, htext, hplace⟩
    have hsame : compare v.storedText u.storedText = .eq := by
      rw [htext, Std.compare_self]
    have hv : v.HasPlainYear := by
      by_contra hsigned
      rw [Instant.compare_of_signed hsigned hu] at hsame
      cases hsame
    rw [Instant.compare_of_plain hv hu] at hsame
    rwa [← Std.LawfulEqOrd.eq_of_compare hsame]
  · intro hplace
    exact ⟨u, rfl, hplace⟩

theorem byText_iff_bySecond (hu : u.HasPlainYear) (ht : t.date.year ≤ 9999) (o : Ordering) :
    byText u.storedText t o ↔ bySecond u.storedText t o := by
  rw [bySecond_iff hu, byText, Instant.storedText_compare hu ht]

theorem year_le_of_bySecond (hu : u.HasPlainYear)
    (h : bySecond u.storedText t .gt ∨ bySecond u.storedText t .eq) : t.date.year ≤ 9999 := by
  rw [bySecond_iff hu, bySecond_iff hu, Int.compare_eq_gt, Int.compare_eq_eq] at h
  by_contra hbeyond
  have hyear : u.date.year < t.date.year := by
    have := hu.2
    omega
  have := Instant.place_lt_of_year hyear
  omega

end TimeOrder

namespace Store

/-- The times that stand in the rows of listings. -/
def times (s : Store) : List String :=
  s.articles.map Article.dateEntered ++ s.copies.filterMap Copy.lastRead

/-- All of them are in the years 0 to 9999. -/
def HasPlainTimes (s : Store) : Prop :=
  ∀ stored ∈ s.times, ∃ u : Instant, u.HasPlainYear ∧ stored = u.storedText

/-- Two orders are one for the times of a store beside some instants. -/
def Agree (s : Store) (bounds : List Instant) (order order' : TimeOrder) : Prop :=
  ∀ stored ∈ s.times, ∀ t ∈ bounds, ∀ o, order stored t o ↔ order' stored t o

variable {s : Store} {r : Joined}

theorem IsRow.dateEntered_mem (hr : s.IsRow r) : r.article.dateEntered ∈ s.times :=
  List.mem_append_left _ (List.mem_map_of_mem hr.article)

theorem IsRow.lastRead_mem (hr : s.IsRow r) {read : String} (h : r.copy.lastRead = some read) :
    read ∈ s.times :=
  List.mem_append_right _ (List.mem_filterMap.mpr ⟨r.copy, hr.copy, h⟩)

end Store

namespace Engine

variable {e : Engine} {ctx : Context} {request : Request} {s : Selection} {r : Joined}
  {search : Option CompiledSearch} {order order' : TimeOrder}

/-- The instant after which a row of the reference is to have arrived or been read. -/
def threshold? (e : Engine) (ctx : Context) (s : Selection) : Option Instant :=
  match s.kind with
  | .special .fresh => some (hoursBefore ctx.now ctx.prefs.freshHours)
  | .special .recentlyRead => some (hoursBefore ctx.now e.limits.recentlyReadHours)
  | _ => none

/-- The instants that the rows of a listing are to be at or after. -/
def bounds (e : Engine) (ctx : Context) (request : Request) (s : Selection) : List Instant :=
  request.start.toList ++ (e.threshold? ctx s).toList

theorem covers_congr (hr : e.store.IsRow r)
    (h : e.store.Agree (e.threshold? ctx s).toList order order') :
    e.Covers ctx order s r ↔ e.Covers ctx order' s r := by
  unfold Covers
  cases hkind : s.kind with
  | special feed =>
    cases feed with
    | fresh =>
      have hnow := h _ hr.dateEntered_mem (hoursBefore ctx.now ctx.prefs.freshHours)
        (by simp [threshold?, hkind]) .gt
      simp only [hnow]
    | recentlyRead =>
      refine and_congr_right fun _ => exists_congr fun read => and_congr_right fun hread => ?_
      exact h _ (hr.lastRead_mem hread) _ (by simp [threshold?, hkind]) .gt
    | _ => rfl
  | _ => rfl

theorem prefersUnread_congr (h : e.store.Agree (e.threshold? ctx s).toList order order')
    (searching : Bool) :
    e.PrefersUnread ctx order request s searching ↔
      e.PrefersUnread ctx order' request s searching := by
  unfold PrefersUnread
  refine and_congr_right fun _ => and_congr_right fun _ => and_congr_right fun _ =>
    exists_congr fun r => and_congr_right fun hr => ?_
  rw [covers_congr hr h]

theorem lists_congr (h : e.store.Agree (e.bounds ctx request s) order order') :
    e.Lists ctx order request s search r → e.Lists ctx order' request s search r := by
  have hthreshold : e.store.Agree (e.threshold? ctx s).toList order order' :=
    fun stored hstored t ht => h stored hstored t (List.mem_append_right _ ht)
  rintro ⟨hr, howner, hcovered, hlive, hshown, hsought, hstart, hsince⟩
  refine ⟨hr, howner, (covers_congr hr hthreshold).mp hcovered, hlive, ?_, hsought,
    fun t ht => ?_, hsince⟩
  · unfold Shows at hshown ⊢
    cases hmode : request.viewMode with
    | adaptive =>
      rw [hmode] at hshown
      exact fun hunread => hshown ((prefersUnread_congr hthreshold _).mpr hunread)
    | _ => rwa [hmode] at hshown
  · have hsame := h _ hr.dateEntered_mem t (List.mem_append_left _ (by simp [ht]))
    exact (hstart t ht).imp (hsame .gt).mp (hsame .eq).mp

theorem bounds_plain (hplain : e.store.HasPlainTimes)
    (h : e.Lists ctx .bySecond request s search r) :
    ∀ t ∈ e.bounds ctx request s, t.date.year ≤ 9999 := by
  have hyear {stored : String} (hstored : stored ∈ e.store.times) {t : Instant}
      (hafter : TimeOrder.bySecond stored t .gt ∨ TimeOrder.bySecond stored t .eq) :
      t.date.year ≤ 9999 := by
    obtain ⟨u, hu, rfl⟩ := hplain stored hstored
    exact TimeOrder.year_le_of_bySecond hu hafter
  intro t ht
  rcases List.mem_append.mp ht with hstart | hthreshold
  · exact hyear h.row.dateEntered_mem (h.start t (by simpa using hstart))
  · have hcovered := h.covered
    unfold Covers at hcovered
    unfold threshold? at hthreshold
    split at hthreshold
    · rename_i hkind
      rw [hkind] at hcovered
      obtain rfl : t = _ := by simpa using hthreshold
      exact hyear h.row.dateEntered_mem (.inl hcovered.2.2)
    · rename_i hkind
      rw [hkind] at hcovered
      obtain rfl : t = _ := by simpa using hthreshold
      obtain ⟨-, read, hread, hafter⟩ := hcovered
      exact hyear (h.row.lastRead_mem hread) (.inl hafter)
    · cases hthreshold

/-- Among plain years the order of the texts is that of the seconds. Beyond them no second has
passed, but the texts are in front of all others. -/
theorem lists_bySecond_iff (hplain : e.store.HasPlainTimes) :
    e.Lists ctx .bySecond request s search r ↔
      e.Lists ctx .byText request s search r ∧
        ∀ t ∈ e.bounds ctx request s, t.date.year ≤ 9999 := by
  have hagree (hyear : ∀ t ∈ e.bounds ctx request s, t.date.year ≤ 9999) :
      e.store.Agree (e.bounds ctx request s) .byText .bySecond := by
    intro stored hstored t ht o
    obtain ⟨u, hu, rfl⟩ := hplain stored hstored
    exact TimeOrder.byText_iff_bySecond hu (hyear t ht) o
  constructor
  · intro hlists
    have hyear := bounds_plain hplain hlists
    exact ⟨lists_congr (fun stored hstored t ht o => (hagree hyear stored hstored t ht o).symm)
      hlists, hyear⟩
  · rintro ⟨hlists, hyear⟩
    exact lists_congr (hagree hyear) hlists

end Engine

end Newsfeed
