import Mathlib.Algebra.Ring.Int.Defs
import Newsfeed.Counters.Snapshot
import Newsfeed.Proofs.Counters.Descent
import Newsfeed.Proofs.Counters.Agreement

/-!
How the numbers of the sidebar are added up. Each row of the owner is counted once in its feed and
once in the category of the feed, so the sum over some categories is the count of the rows that
stand in one of them.
-/

namespace Newsfeed

section Entries

variable {α : Type} {l : List (Int × α)}

/-- The entries stand from the smallest id up, and no id has two. -/
def ById (l : List (Int × α)) : Prop := l.Pairwise fun a b => a.1 < b.1

theorem ById.lt {i : Int} {a : α} {l : List (Int × α)} (h : ById ((i, a) :: l)) {j : Int} {b : α}
    (hb : (j, b) ∈ l) : i < j :=
  (List.pairwise_cons.mp h).1 (j, b) hb

theorem ById.tail {e : Int × α} {l : List (Int × α)} (h : ById (e :: l)) : ById l :=
  (List.pairwise_cons.mp h).2

/-- An entry takes the place of the one with its id and leaves the others. -/
theorem mem_putById (h : ById l) (i : Int) (a : α) {j : Int} {b : α} :
    (j, b) ∈ putById i a l ↔ if j = i then b = a else (j, b) ∈ l := by
  fun_induction putById i a l with
  | case1 => by_cases hj : j = i <;> simp [hj]
  | case2 k c rest hlt =>
    have hnone : (i, b) ∉ (k, c) :: rest := by
      intro hmem
      rcases List.mem_cons.mp hmem with hmem | hmem
      · have := (Prod.mk.inj hmem).1
        omega
      · have := h.lt hmem
        omega
    rw [List.mem_cons, Prod.mk.injEq]
    by_cases hj : j = i
    · subst hj
      simp [hnone]
    · simp [hj]
  | case3 c rest hlt =>
    have hnone : (i, b) ∉ rest := fun hmem => by
      have := h.lt hmem
      omega
    rw [List.mem_cons, Prod.mk.injEq]
    by_cases hj : j = i
    · subst hj
      simp [hnone]
    · simp [hj]
  | case4 k c rest hlt hne ih =>
    rw [List.mem_cons, List.mem_cons, Prod.mk.injEq, ih h.tail]
    by_cases hj : j = i
    · subst hj
      simp [hne]
    · simp [hj]

theorem byId_putById (h : ById l) (i : Int) (a : α) : ById (putById i a l) := by
  fun_induction putById i a l with
  | case1 => exact List.pairwise_singleton _ _
  | case2 k c rest hlt =>
    refine List.pairwise_cons.mpr ⟨fun e he => ?_, h⟩
    rcases List.mem_cons.mp he with rfl | he
    · exact hlt
    · exact Int.lt_trans hlt (h.lt he)
  | case3 c rest hlt => exact List.pairwise_cons.mpr ⟨fun e he => h.lt he, h.tail⟩
  | case4 k c rest hlt hne ih =>
    refine List.pairwise_cons.mpr ⟨fun e he => ?_, ih h.tail⟩
    have hmem := (mem_putById h.tail i a).mp he
    split at hmem
    · simp only
      omega
    · exact h.lt hmem

/-- Entries that are put in one after the other, each with the value of its id. -/
theorem foldl_putById (h : ById l) (g : Int → α) (ids : List Int) :
    ById (ids.foldl (fun m i => putById i (g i) m) l) ∧ ∀ j b,
      (j, b) ∈ ids.foldl (fun m i => putById i (g i) m) l ↔
        if j ∈ ids then b = g j else (j, b) ∈ l := by
  induction ids generalizing l with
  | nil => exact ⟨h, by simp⟩
  | cons i ids ih =>
    obtain ⟨hsorted, hmem⟩ := ih (byId_putById h i (g i))
    refine ⟨hsorted, fun j b => ?_⟩
    rw [List.foldl_cons, hmem, mem_putById h]
    by_cases hj : j = i
    · subst hj
      simp
    · simp [hj]

/-- The entry of an id is found. -/
theorem ById.lookup_eq {l : List (Int × α)} (h : ById l) {i : Int} {a : α} (hmem : (i, a) ∈ l) :
    l.lookup i = some a := by
  induction l with
  | nil => cases hmem
  | cons e l ih =>
    obtain ⟨j, b⟩ := e
    rcases List.mem_cons.mp hmem with hhead | htail
    · obtain ⟨rfl, rfl⟩ := Prod.mk.inj hhead
      exact List.lookup_cons_self
    · have hne : i ≠ j := Int.ne_of_gt (h.lt htail)
      rw [List.lookup_cons, beq_false_of_ne hne]
      exact ih h.tail htail

end Entries

section Sums

variable {α : Type}

theorem foldl_add (f : α → Int) (l : List α) (n : Int) :
    l.foldl (fun n a => n + f a) n = n + (l.map f).sum := by
  induction l generalizing n with
  | nil => simp
  | cons a l ih => rw [List.foldl_cons, ih, List.map_cons, List.sum_cons, Int.add_assoc]

theorem nodup_eraseDups [BEq α] [LawfulBEq α] (l : List α) : l.eraseDups.Nodup := by
  induction hn : l.length using Nat.strongRecOn generalizing l with
  | ind n ih =>
    cases l with
    | nil => exact List.nodup_nil
    | cons a l =>
      rw [List.eraseDups_cons, List.nodup_cons]
      refine ⟨fun ha => by simp [List.mem_eraseDups] at ha, ih _ ?_ _ rfl⟩
      rw [← hn, List.length_cons]
      exact Nat.lt_succ_of_le (List.length_filter_le _ _)

theorem countP_add (p q : α → Bool) {rows : List α} (h : ∀ r ∈ rows, p r → q r = false) :
    rows.countP p + rows.countP q = rows.countP fun r => p r || q r := by
  induction rows with
  | nil => rfl
  | cons r rows ih =>
    have hr := h r List.mem_cons_self
    have hrest := ih fun a ha => h a (List.mem_cons_of_mem r ha)
    cases hp : p r with
    | false =>
      simp only [List.countP_cons, hp, Bool.false_or, Bool.false_eq_true, if_false, ← hrest]
      omega
    | true =>
      simp only [List.countP_cons, hp, hr hp, Bool.true_or, Bool.false_eq_true, if_true, if_false,
        ← hrest]
      omega

/-- Rows that are counted by tests of which no row passes two are counted once each. -/
theorem sum_countP_apart {κ : Type} (p : κ → α → Bool) {keys : List κ} {rows : List α}
    (hapart : keys.Pairwise fun k l => ∀ r ∈ rows, p k r → p l r = false) :
    (keys.map fun k => (rows.countP (p k) : Int)).sum =
      (rows.countP fun r => keys.any fun k => p k r : Int) := by
  induction keys with
  | nil => simp
  | cons k keys ih =>
    obtain ⟨hk, hrest⟩ := List.pairwise_cons.mp hapart
    rw [List.map_cons, List.sum_cons, ih hrest, ← Int.natCast_add, countP_add]
    · simp only [List.any_cons]
    · intro r hr hp
      rw [List.any_eq_false]
      intro l hl
      simp [hk l hl r hr hp]

/-- So are those that are counted by a key. -/
theorem sum_countP {κ : Type} [DecidableEq κ] (key : α → κ) (p : α → Bool) {keys : List κ}
    (hkeys : keys.Nodup) (rows : List α) :
    (keys.map fun k => (rows.countP fun r => decide (key r = k) && p r : Int)).sum =
      (rows.countP fun r => decide (key r ∈ keys) && p r : Int) := by
  have hapart : keys.Pairwise fun k l =>
      ∀ r ∈ rows, (decide (key r = k) && p r) → (decide (key r = l) && p r) = false := by
    refine hkeys.imp fun hne r _ hr => ?_
    simp only [Bool.and_eq_true, decide_eq_true_eq] at hr
    simp [hr.1, hne]
  rw [sum_countP_apart (fun k r => decide (key r = k) && p r) hapart]
  refine congrArg Nat.cast (List.countP_congr fun r _ => ?_)
  simp only [List.any_eq_true, Bool.and_eq_true, decide_eq_true_eq]
  constructor
  · rintro ⟨k, hk, rfl, hp⟩
    exact ⟨hk, hp⟩
  · rintro ⟨hk, hp⟩
    exact ⟨key r, hk, rfl, hp⟩

end Sums

namespace CategoryForest

theorem total_eq (f : CategoryForest) (own : Int → Int) (id : Int) :
    f.total own id = ((id :: f.descendants id).map own).sum := by
  rw [total, foldl_add, List.map_cons, List.sum_cons]

end CategoryForest

namespace Store

variable {s : Store} {owner : Int}

/-- The owner's rows, archived ones too. -/
def ownRows (s : Store) (owner : Int) : List Joined :=
  (s.joined true).filter fun r => r.copy.owner = owner

/-- The feeds that the owner has rows of, archived rows having none. -/
def feedKeys (s : Store) (owner : Int) : List (Option Int) :=
  (((s.ownRows owner).map fun r => r.copy.feed).eraseDups).mergeSort fun a b =>
    (Cell.ofInt? a).sortOrder (Cell.ofInt? b) != .gt

theorem feedCounters_eq (s : Store) (owner : Int) (since : Time.Instant) :
    s.feedCounters owner since =
      (s.feedKeys owner).map (counterOf (s.ownRows owner) since.storedText) := rfl

theorem mem_feedKeys {feed : Option Int} :
    feed ∈ s.feedKeys owner ↔ ∃ r ∈ s.ownRows owner, r.copy.feed = feed := by
  rw [feedKeys, List.mem_mergeSort, List.mem_eraseDups, List.mem_map]

theorem feedKeys_nodup (s : Store) (owner : Int) : (s.feedKeys owner).Nodup :=
  (List.mergeSort_perm _ _).nodup_iff.mpr (nodup_eraseDups _)

/-- How many of the owner's rows pass a test. -/
def countRows (s : Store) (owner : Int) (p : Joined → Bool) : Int :=
  ((s.ownRows owner).countP p : Nat)

theorem mem_ownRows (h : Sound s) {r : Joined} :
    r ∈ s.ownRows owner ↔ s.IsRow r ∧ r.copy.owner = owner := by
  rw [ownRows, List.mem_filter, mem_joined h, decide_eq_true_eq]
  simp

theorem countRows_congr (h : Sound s) {p q : Joined → Bool}
    (hpq : ∀ r, s.IsRow r → (p r ↔ q r)) : s.countRows owner p = s.countRows owner q :=
  congrArg Nat.cast (List.countP_congr fun r hr => hpq r ((mem_ownRows h).mp hr).1)

theorem countRows_eq_zero {p : Joined → Bool} (h : ∀ r ∈ s.ownRows owner, p r = false) :
    s.countRows owner p = 0 := by
  rw [countRows, Int.natCast_eq_zero, List.countP_eq_zero]
  intro r hr hp
  rw [h r hr] at hp
  cases hp

/-- Rows are counted in live feeds and among the archived ones. -/
theorem countRows_split (s : Store) (owner : Int) (p : Joined → Bool) :
    s.countRows owner p = (s.countRows owner fun r => r.copy.feed.isSome && p r) +
      s.countRows owner fun r => r.copy.feed.isNone && p r := by
  have hapart : ∀ r ∈ s.ownRows owner,
      (r.copy.feed.isSome && p r) → (r.copy.feed.isNone && p r) = false := by
    intro r _ hr
    cases hfeed : r.copy.feed <;> simp [hfeed] at hr ⊢
  rw [countRows, countRows, countRows, ← Int.natCast_add, countP_add _ _ hapart]
  refine congrArg Nat.cast (List.countP_congr fun r _ => ?_)
  cases r.copy.feed <;> simp

/-- The length of a listing as a count. -/
theorem matching_count (h : Sound s) (owner : Int) (archived : Bool) (filter : Predicate) :
    ((s.matching owner archived filter).length : Int) = s.countRows owner fun r =>
      (archived || r.copy.feed.isSome) && filter.admits (s.facts r) := by
  have hall : s.matching owner true filter =
      (s.ownRows owner).filter fun r => filter.admits (s.facts r) := by
    rw [matching, ownRows, List.filter_filter]
    refine List.filter_congr fun r _ => ?_
    rw [Bool.and_comm]
  cases archived with
  | true =>
    rw [hall, countRows, List.countP_eq_length_filter]
    simp
  | false =>
    rw [(matching_live h owner filter).length_eq, hall, List.filter_filter, countRows,
      List.countP_eq_length_filter]
    simp

end Store

/-- The number of the category that a row is counted in, 0 being none. -/
def Joined.category (r : Joined) : Int := (r.feed.bind Feed.category).getD 0

namespace Store

variable {s : Store} {owner : Int}

theorem counterOf_category (h : Sound s) {r : Joined} (hr : r ∈ s.ownRows owner) (since : String) :
    (counterOf (s.ownRows owner) since r.copy.feed).category = r.feed.bind Feed.category := by
  have hgroup : r ∈ (s.ownRows owner).filter fun r' => r'.copy.feed = r.copy.feed :=
    List.mem_filter.mpr ⟨hr, by simp⟩
  obtain ⟨first, hfirst⟩ : ∃ first, ((s.ownRows owner).filter
      fun r' => r'.copy.feed = r.copy.feed).head? = some first := by
    rw [← Option.isSome_iff_exists, List.isSome_head?]
    exact List.ne_nil_of_mem hgroup
  obtain ⟨hown, hsame⟩ := List.mem_filter.mp (List.mem_of_mem_head? hfirst)
  have hfeed : first.feed = r.feed := Option.ext fun f => by
    rw [((mem_ownRows h).mp hown).1.feed f, ((mem_ownRows h).mp hr).1.feed f,
      of_decide_eq_true hsame]
  rw [counterOf, hfirst, Option.bind_some, hfeed]

/-- What a counter counts: the rows of its feed that pass a test. -/
def Counts (s : Store) (owner : Int) (since : Time.Instant) (count : FeedCounter → Nat)
    (p : Joined → Bool) : Prop :=
  ∀ feed, (count (counterOf (s.ownRows owner) since.storedText feed) : Int) =
    s.countRows owner fun r => decide (r.copy.feed = feed) && p r

theorem counts_of_group {since : Time.Instant} {count : FeedCounter → Nat} {p : Joined → Bool}
    (h : ∀ feed, count (counterOf (s.ownRows owner) since.storedText feed) =
      ((s.ownRows owner).filter fun r => r.copy.feed = feed).countP p) :
    s.Counts owner since count p := by
  intro feed
  rw [h feed, List.countP_filter, countRows]
  simp only [Bool.and_comm]

theorem counts_unread (s : Store) (owner : Int) (since : Time.Instant) :
    s.Counts owner since FeedCounter.unread fun r => r.copy.unread :=
  counts_of_group fun _ => rfl

theorem counts_marked (s : Store) (owner : Int) (since : Time.Instant) :
    s.Counts owner since FeedCounter.marked fun r => r.copy.marked :=
  counts_of_group fun _ => rfl

/-- Counters that pass a test add up to the rows of their feeds. -/
theorem sumOf_filter {since : Time.Instant} {count : FeedCounter → Nat} {p : Joined → Bool}
    (hcount : s.Counts owner since count p) (q : FeedCounter → Bool) {q' : Joined → Bool}
    (hq : ∀ r ∈ s.ownRows owner,
      q (counterOf (s.ownRows owner) since.storedText r.copy.feed) = q' r) :
    FeedCounter.sumOf count ((s.feedCounters owner since).filter q) =
      s.countRows owner fun r => q' r && p r := by
  rw [FeedCounter.sumOf, foldl_add, Int.zero_add, feedCounters_eq, List.filter_map, List.map_map]
  have hkeys := (feedKeys_nodup s owner).filter
    (q ∘ counterOf (s.ownRows owner) since.storedText)
  have hsum := sum_countP (fun r : Joined => r.copy.feed) p hkeys (s.ownRows owner)
  simp only [Function.comp_def, hcount _, countRows] at hsum ⊢
  rw [hsum]
  refine congrArg Nat.cast (List.countP_congr fun r hr => ?_)
  have hmem : r.copy.feed ∈ s.feedKeys owner := mem_feedKeys.mpr ⟨r, hr, rfl⟩
  simp only [Bool.and_eq_true, decide_eq_true_eq, List.mem_filter, hmem, hq r hr, true_and]

/-- All counters together count all rows. -/
theorem sumOf_counters {since : Time.Instant} {count : FeedCounter → Nat} {p : Joined → Bool}
    (hcount : s.Counts owner since count p) :
    FeedCounter.sumOf count (s.feedCounters owner since) = s.countRows owner p := by
  have hall := sumOf_filter hcount (fun _ => true) (fun _ _ => rfl)
  simpa using hall

/-- The counters of live feeds count the rows that are not archived. -/
theorem sumOf_live {since : Time.Instant} {count : FeedCounter → Nat} {p : Joined → Bool}
    (hcount : s.Counts owner since count p) :
    FeedCounter.sumOf count (FeedCounter.live (s.feedCounters owner since)) =
      s.countRows owner fun r => r.copy.feed.isSome && p r :=
  sumOf_filter hcount (fun c => c.feed.isSome) fun _ _ => rfl

section Categories

variable {since : Time.Instant} {count : FeedCounter → Nat} {p : Joined → Bool}
  (h : Sound s) (hcount : s.Counts owner since count p)
include h hcount

/-- A category counts the rows of live feeds that stand in it. -/
theorem inCategory_eq (category : Int) :
    FeedCounter.inCategory count (s.feedCounters owner since) category =
      s.countRows owner fun r =>
        decide (r.category = category) && (r.copy.feed.isSome && p r) := by
  rw [FeedCounter.inCategory, FeedCounter.live, List.filter_filter]
  refine (sumOf_filter hcount _ fun r hr => ?_).trans (congrArg (s.countRows owner)
    (funext fun r => Bool.and_assoc (decide (r.category = category)) r.copy.feed.isSome (p r)))
  rw [counterOf_category h hr since.storedText]
  rfl

/-- With those below it, it counts the rows that stand in one of them. -/
theorem total_inCategory {forest : CategoryForest} (hf : forest.Distinct) (category : Int) :
    forest.total (FeedCounter.inCategory count (s.feedCounters owner since)) category =
      s.countRows owner fun r => decide (r.category ∈ category :: forest.descendants category) &&
        (r.copy.feed.isSome && p r) := by
  have hsum := sum_countP Joined.category (fun r => r.copy.feed.isSome && p r)
    (CategoryForest.branch_nodup hf category) (s.ownRows owner)
  rw [CategoryForest.total_eq, countRows, ← hsum]
  refine congrArg List.sum (List.map_congr_left fun below _ => ?_)
  exact inCategory_eq h hcount below

end Categories

/-- What is counted of the copies of a feed. -/
def feedTally (s : Store) (owner feed : Int) : Tally :=
  ⟨s.countRows owner fun r => decide (r.copy.feed = some feed) && r.copy.unread,
   s.countRows owner fun r => decide (r.copy.feed = some feed) && r.copy.marked⟩

theorem feedTally_of_no_rows {feed : Int} (h : some feed ∉ s.feedKeys owner) :
    s.feedTally owner feed = ⟨0, 0⟩ := by
  have hnone (r : Joined) (hr : r ∈ s.ownRows owner) : ¬r.copy.feed = some feed := fun hfeed =>
    h (mem_feedKeys.mpr ⟨r, hr, hfeed⟩)
  rw [feedTally, countRows_eq_zero fun r hr => by simp [hnone r hr],
    countRows_eq_zero fun r hr => by simp [hnone r hr]]

theorem feedTallies_eq (feeds : List Feed) (s : Store) (owner : Int) (since : Time.Instant) :
    feedTallies feeds (s.feedCounters owner since) =
      ((s.feedKeys owner).filterMap id).foldl (fun m f => putById f (s.feedTally owner f) m)
        ((feeds.map Feed.id).foldl (fun m f => putById f ⟨0, 0⟩ m) []) := by
  rw [feedTallies, feedCounters_eq, List.foldl_map, List.foldl_filterMap, List.foldl_map]
  refine congrArg (fun put => List.foldl put _ _) (funext fun m => funext fun feed => ?_)
  cases feed with
  | none => rfl
  | some feed =>
    refine congrArg (fun t => putById feed t m) ?_
    rw [feedTally, ← counts_unread s owner since (some feed),
      ← counts_marked s owner since (some feed)]

theorem byId_feedTallies (feeds : List Feed) (s : Store) (owner : Int) (since : Time.Instant) :
    ById (feedTallies feeds (s.feedCounters owner since)) := by
  obtain ⟨hzeros, -⟩ := foldl_putById (List.Pairwise.nil : ById ([] : List (Int × Tally)))
    (fun _ => ⟨0, 0⟩) (feeds.map Feed.id)
  rw [feedTallies_eq]
  exact (foldl_putById hzeros (s.feedTally owner) _).1

/-- Listed are the feeds of the owner and those that the owner has copies of. -/
theorem mem_feedTallies (s : Store) (owner : Int) (since : Time.Instant) {feed : Int} {t : Tally} :
    (feed, t) ∈ feedTallies (s.feedsOfOwner owner) (s.feedCounters owner since) ↔
      (feed ∈ (s.feedsOfOwner owner).map Feed.id ∨ some feed ∈ s.feedKeys owner) ∧
        t = s.feedTally owner feed := by
  obtain ⟨hsorted, hzeros⟩ := foldl_putById (List.Pairwise.nil : ById ([] : List (Int × Tally)))
    (fun _ => ⟨0, 0⟩) ((s.feedsOfOwner owner).map Feed.id)
  rw [feedTallies_eq, (foldl_putById hsorted (s.feedTally owner) _).2, hzeros]
  have hkeys : feed ∈ (s.feedKeys owner).filterMap id ↔ some feed ∈ s.feedKeys owner := by simp
  by_cases hrows : some feed ∈ s.feedKeys owner
  · rw [if_pos (hkeys.mpr hrows)]
    simp [hrows]
  · rw [if_neg (mt hkeys.mp hrows), feedTally_of_no_rows hrows]
    simp [hrows]

end Store

theorem byId_categoryTallies (forest : CategoryForest) (counters : List FeedCounter) :
    ById (categoryTallies forest counters) :=
  byId_putById (foldl_putById List.Pairwise.nil _ forest.ids).1 0 _

/-- Listed are the categories of the forest, and number 0 for what stands in none. -/
theorem mem_categoryTallies (forest : CategoryForest) (counters : List FeedCounter) {id : Int}
    {t : Tally} : (id, t) ∈ categoryTallies forest counters ↔
      let unread := FeedCounter.inCategory FeedCounter.unread counters
      let marked := FeedCounter.inCategory FeedCounter.marked counters
      if id = 0 then t = ⟨unread 0, marked 0⟩
      else id ∈ forest.ids ∧ t = ⟨forest.total unread id, forest.total marked id⟩ := by
  obtain ⟨hsorted, hnodes⟩ := foldl_putById (List.Pairwise.nil : ById ([] : List (Int × Tally)))
    (fun id => ⟨forest.total (FeedCounter.inCategory FeedCounter.unread counters) id,
      forest.total (FeedCounter.inCategory FeedCounter.marked counters) id⟩) forest.ids
  rw [categoryTallies, mem_putById hsorted, hnodes]
  simp

end Newsfeed
