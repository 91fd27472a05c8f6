import Newsfeed.Proofs.Listing.Matching

/-!
Stores that an owner cannot tell apart: they differ in the rows of other owners only. What is read
for the owner is the same in both.
-/

namespace Newsfeed

open Newsfeed.Text

/-- The rows of a table stand by number, the smallest first. -/
def Rising {α : Type} (id : α → Int) (rows : List α) : Prop :=
  rows.Pairwise fun a b => id a < id b

namespace Rising

variable {α : Type} {id : α → Int} {rows : List α}

theorem push (h : Rising id rows) {next : Nat} (hbelow : Numbered (rows.map id) next) {a : α}
    (ha : id a = next) : Rising id (rows ++ [a]) := by
  refine List.pairwise_append.mpr ⟨h, List.pairwise_singleton _ _, ?_⟩
  intro b hb c hc
  rw [List.mem_singleton.mp hc, ha]
  exact hbelow.below (id b) (List.mem_map_of_mem hb)

/-- Rows may be changed as long as they keep their numbers. -/
theorem map (h : Rising id rows) {f : α → α} (hf : ∀ a, id (f a) = id a) :
    Rising id (rows.map f) := by
  refine List.pairwise_map.mpr (h.imp fun {a b} hab => ?_)
  rwa [hf a, hf b]

theorem nodup (h : Rising id rows) : rows.Nodup :=
  h.imp fun {a b} hab heq => by
    rw [heq] at hab
    exact Int.lt_irrefl _ hab

/-- Tables with the same rows of a kind have them in the same order. -/
theorem filter_same (h : Rising id rows) {rows' : List α} (h' : Rising id rows') {p : α → Bool}
    (hsame : ∀ a, p a → (a ∈ rows ↔ a ∈ rows')) : rows.filter p = rows'.filter p := by
  have hperm : (rows.filter p).Perm (rows'.filter p) := by
    refine (List.perm_ext_iff_of_nodup (h.nodup.filter p) (h'.nodup.filter p)).mpr fun a => ?_
    rw [List.mem_filter, List.mem_filter]
    constructor
    · intro ha
      exact ⟨(hsame a ha.2).mp ha.1, ha.2⟩
    · intro ha
      exact ⟨(hsame a ha.2).mpr ha.1, ha.2⟩
  refine hperm.eq_of_pairwise (fun a b _ _ hab hba => ?_) (h.sublist List.filter_sublist)
    (h'.sublist List.filter_sublist)
  exact absurd (Int.lt_trans hab hba) (Int.lt_irrefl _)

theorem find_same (h : Rising id rows) {rows' : List α} (h' : Rising id rows') {p : α → Bool}
    (hsame : ∀ a, p a → (a ∈ rows ↔ a ∈ rows')) : rows.find? p = rows'.find? p := by
  rw [← List.head?_filter, ← List.head?_filter, h.filter_same h' hsame]

theorem same (h : Rising id rows) {rows' : List α} (h' : Rising id rows')
    (hsame : ∀ a, a ∈ rows ↔ a ∈ rows') : rows = rows' := by
  have hfilter := h.filter_same h' (p := fun _ => true) fun a _ => hsame a
  rwa [List.filter_eq_self.mpr fun _ _ => rfl, List.filter_eq_self.mpr fun _ _ => rfl] at hfilter

end Rising

namespace Store

structure Ascending (s : Store) : Prop where
  categories : Rising Category.id s.categories
  feeds : Rising Feed.id s.feeds
  articles : Rising Article.id s.articles
  copies : Rising Copy.id s.copies
  labels : Rising Label.id s.labels

theorem ascending_empty : Ascending empty := by
  constructor <;> exact List.Pairwise.nil

variable {s t : Store}

theorem Ascending.withLabelCaches (h : Ascending s) (article : Int) :
    Ascending (s.withLabelCaches article) :=
  { h with copies := h.copies.map fun c => by split <;> rfl }

theorem Ascending.withTagCache (h : Ascending s) (copy : Int) : Ascending (s.withTagCache copy) :=
  { h with copies := h.copies.map fun c => by split <;> rfl }

theorem ascending_of_step (hstep : Step s t) (hs : Sound s) (h : Ascending s) : Ascending t := by
  cases hstep with
  | category row hid => exact { h with categories := h.categories.push hs.categories hid }
  | feed row hid => exact { h with feeds := h.feeds.push hs.feeds hid }
  | article row copy _ _ _ hid _ _ _ _ hcopy =>
    exact { h with
      articles := h.articles.push hs.articles hid
      copies := h.copies.push hs.copies hcopy }
  | copy row copy _ _ hcopy => exact { h with copies := h.copies.push hs.copies hcopy }
  | content row hrow content =>
    exact { h with articles := h.articles.map fun a => by split <;> rfl }
  | label row hid => exact { h with labels := h.labels.push hs.labels hid }
  | labeling row =>
    have hrows : Ascending { s with labelings := s.labelings ++ [row] } := { h with }
    exact hrows.withLabelCaches row.article
  | relabeling row => exact h.withLabelCaches row.article
  | tag row =>
    have hrows : Ascending { s with tags := s.tags ++ [row] } := { h with }
    exact hrows.withTagCache row.copy
  | retag row => exact h.withTagCache row.copy
  | _ => exact { h with }

theorem Reachable.ascending (h : Reachable s) : Ascending s := by
  have hboth := h.induction (p := fun s => Sound s ∧ Ascending s) ⟨sound_empty, ascending_empty⟩
    fun s t hstep hs => ⟨sound_of_step hstep hs.1, ascending_of_step hstep hs.1 hs.2⟩
  exact hboth.2

/-- The stores have the same articles, and the same of an owner: all that has the owner's number on
it, the articles that the owner's labels are on, and the feeds that the owner's copies are in, which
may be another's. Stored preferences have no part in it, since a context holds those that count. -/
structure SameFor (owner : Int) (s t : Store) : Prop where
  articles : ∀ a, a ∈ s.articles ↔ a ∈ t.articles
  index : ∀ r, r ∈ s.index ↔ r ∈ t.index
  categories : ∀ c, c.owner = owner → (c ∈ s.categories ↔ c ∈ t.categories)
  feeds : ∀ f, f.owner = owner → (f ∈ s.feeds ↔ f ∈ t.feeds)
  copies : ∀ c, c.owner = owner → (c ∈ s.copies ↔ c ∈ t.copies)
  copy_feed : ∀ c ∈ s.copies, c.owner = owner → ∀ f, c.feed = some f.id →
    (f ∈ s.feeds ↔ f ∈ t.feeds)
  labels : ∀ l, l.owner = owner → (l ∈ s.labels ↔ l ∈ t.labels)
  labelings : ∀ l ∈ s.labels, l.owner = owner → ∀ article,
    (⟨l.id, article⟩ ∈ s.labelings ↔ ⟨l.id, article⟩ ∈ t.labelings)
  tags : ∀ g, g.owner = owner → (g ∈ s.tags ↔ g ∈ t.tags)

/-- The stores have the same labels of an owner, on the same articles. -/
structure SameLabels (owner : Int) (s t : Store) : Prop where
  labels : ∀ l, l.owner = owner → (l ∈ s.labels ↔ l ∈ t.labels)
  labelings : ∀ l ∈ s.labels, l.owner = owner → ∀ article,
    (⟨l.id, article⟩ ∈ s.labelings ↔ ⟨l.id, article⟩ ∈ t.labelings)

namespace SameLabels

variable {owner : Int} (h : SameLabels owner s t)
include h

theorem labeling_same {id : Int} (hid : ∃ l ∈ s.labels, l.id = id ∧ l.owner = owner)
    (article : Int) : s.labelings.contains ⟨id, article⟩ = t.labelings.contains ⟨id, article⟩ := by
  obtain ⟨l, hl, rfl, howner⟩ := hid
  rw [Bool.eq_iff_iff, List.contains_iff_mem, List.contains_iff_mem]
  exact h.labelings l hl howner article

theorem hasLabelOf_same (article : Int) :
    s.hasLabelOf article owner = t.hasLabelOf article owner := by
  rw [Bool.eq_iff_iff]
  simp only [hasLabelOf, List.any_eq_true, decide_eq_true_eq]
  constructor
  · rintro ⟨g, hg, rfl, l, hl, hid, howner⟩
    refine ⟨g, ?_, rfl, l, (h.labels l howner).mp hl, hid, howner⟩
    have hlabeling := (h.labelings l hl howner g.article).mp
    rw [hid] at hlabeling
    exact hlabeling hg
  · rintro ⟨g, hg, rfl, l, hl, hid, howner⟩
    have hl := (h.labels l howner).mpr hl
    refine ⟨g, ?_, rfl, l, hl, hid, howner⟩
    have hlabeling := (h.labelings l hl howner g.article).mpr
    rw [hid] at hlabeling
    exact hlabeling hg

end SameLabels

/-- Both stores can be reached, so that their rows stand by number. -/
structure Apart (owner : Int) (s t : Store) : Prop where
  left : Reachable s
  right : Reachable t
  same : SameFor owner s t

namespace Apart

variable {owner : Int} (h : Apart owner s t)
include h

theorem sameLabels : SameLabels owner s t := ⟨h.same.labels, h.same.labelings⟩

theorem feed_same (id : Int) : s.feed? owner id = t.feed? owner id := by
  refine h.left.ascending.feeds.find_same h.right.ascending.feeds fun f hf => ?_
  exact h.same.feeds f (of_decide_eq_true hf).2

theorem category_same (id : Int) : s.category? owner id = t.category? owner id := by
  refine h.left.ascending.categories.find_same h.right.ascending.categories fun c hc => ?_
  exact h.same.categories c (of_decide_eq_true hc).2

theorem label_same (id : Int) : s.label? owner id = t.label? owner id := by
  refine h.left.ascending.labels.find_same h.right.ascending.labels fun l hl => ?_
  exact h.same.labels l (of_decide_eq_true hl).2

theorem labelsOf_same : (s.labels.filter fun l => l.owner = owner) =
    t.labels.filter fun l => l.owner = owner :=
  h.left.ascending.labels.filter_same h.right.ascending.labels fun l hl =>
    h.same.labels l (of_decide_eq_true hl)

theorem findLabel_same (caption : String) :
    s.findLabel? owner caption = t.findLabel? owner caption := by
  have hfound := h.left.ascending.labels.filter_same h.right.ascending.labels
    (p := fun l => l.owner = owner ∧ lowercase l.caption = lowercase caption)
    fun l hl => h.same.labels l (of_decide_eq_true hl).1
  simp only [findLabel?, hfound]

theorem categories_same : s.categoriesOfOwner owner = t.categoriesOfOwner owner := by
  have hown := h.left.ascending.categories.filter_same h.right.ascending.categories
    (p := fun c => c.owner = owner) fun c hc => h.same.categories c (of_decide_eq_true hc)
  rw [categoriesOfOwner, categoriesOfOwner, hown]

theorem feeds_same : s.feedsOfOwner owner = t.feedsOfOwner owner := by
  have hown := h.left.ascending.feeds.filter_same h.right.ascending.feeds
    (p := fun f => f.owner = owner) fun f hf => h.same.feeds f (of_decide_eq_true hf)
  rw [feedsOfOwner, feedsOfOwner, hown]

theorem words_same (article : Int) : s.indexedWords article = t.indexedWords article := by
  have hone (s : Store) (hs : Sound s) : ∀ r ∈ s.index, ∀ q ∈ s.index,
      decide (r.article = article) = true → decide (q.article = article) = true → r = q := by
    intro r hr q hq hrid hqid
    rw [decide_eq_true_eq] at hrid hqid
    exact eq_of_id hs.index hr hq (hrid.trans hqid.symm)
  have hfind : (s.index.find? fun r => r.article = article) =
      t.index.find? fun r => r.article = article := by
    refine Option.ext fun r => ?_
    rw [find_iff (hone s h.left.sound), find_iff (hone t h.right.sound), h.same.index]
  rw [indexedWords, indexedWords, hfind]

theorem feedsOf_same {c : Copy} (hc : c ∈ s.copies) (howner : c.owner = owner) (archived : Bool) :
    s.feedsOf archived c = t.feedsOf archived c := by
  have hfound := h.left.ascending.feeds.filter_same h.right.ascending.feeds
    (p := fun f => c.feed = some f.id)
    fun f hf => h.same.copy_feed c hc howner f (of_decide_eq_true hf)
  rw [feedsOf, feedsOf, hfound]

end Apart

/-- The owner's rows of a listing. -/
def rowsFor (s : Store) (owner : Int) (archived : Bool) : List Joined :=
  s.articles.flatMap fun a =>
    (s.copies.filter fun c => c.article = a.id ∧ c.owner = owner).flatMap fun c =>
      (s.feedsOf archived c).map fun f => ⟨a, c, f⟩

theorem filter_flatMap_filter {α β : Type} (rows : List α) (p q : α → Bool) (f : α → List β)
    {r : β → Bool} (hr : ∀ a, ∀ b ∈ f a, r b = q a) :
    ((rows.filter p).flatMap f).filter r = (rows.filter fun a => p a && q a).flatMap f := by
  induction rows with
  | nil => rfl
  | cons a rows ih =>
    by_cases hp : p a = true
    · rw [List.filter_cons_of_pos hp, List.flatMap_cons, List.filter_append, ih]
      by_cases hq : q a = true
      · have hall : (f a).filter r = f a :=
          List.filter_eq_self.mpr fun b hb => (hr a b hb).trans hq
        rw [List.filter_cons_of_pos (by simp [hp, hq]), List.flatMap_cons, hall]
      · have hnone : (f a).filter r = [] := List.filter_eq_nil_iff.mpr fun b hb => by
          rwa [hr a b hb]
        rw [List.filter_cons_of_neg (by simp [hq]), hnone, List.nil_append]
    · rw [List.filter_cons_of_neg hp, List.filter_cons_of_neg (by simp [hp]), ih]

theorem joined_filter (s : Store) (owner : Int) (archived : Bool) :
    ((s.joined archived).filter fun r => r.copy.owner = owner) = s.rowsFor owner archived := by
  unfold joined rowsFor
  rw [List.filter_flatMap]
  refine List.flatMap_congr fun a _ => ?_
  rw [filter_flatMap_filter _ _ (fun c => decide (c.owner = owner))]
  · simp only [Bool.decide_and]
  · intro c r hr
    obtain ⟨f, -, rfl⟩ := List.mem_map.mp hr
    rfl

theorem matching_eq (s : Store) (owner : Int) (archived : Bool) (filter : Predicate) :
    s.matching owner archived filter =
      (s.rowsFor owner archived).filter fun r => filter.admits (s.facts r) := by
  rw [← joined_filter, List.filter_filter, matching]
  exact List.filter_congr fun r _ => Bool.and_comm _ _

namespace Apart

variable {owner : Int} (h : Apart owner s t)
include h

theorem rowsFor_same (archived : Bool) : s.rowsFor owner archived = t.rowsFor owner archived := by
  unfold rowsFor
  rw [h.left.ascending.articles.same h.right.ascending.articles h.same.articles]
  refine List.flatMap_congr fun a _ => ?_
  have hcopies := h.left.ascending.copies.filter_same h.right.ascending.copies
    (p := fun c => c.article = a.id ∧ c.owner = owner)
    fun c hc => h.same.copies c (of_decide_eq_true hc).2
  rw [← hcopies]
  refine List.flatMap_congr fun c hc => ?_
  obtain ⟨hmem, hkey⟩ := List.mem_filter.mp hc
  rw [h.feedsOf_same hmem (of_decide_eq_true hkey).2]

theorem feedCounters_same (since : Time.Instant) :
    s.feedCounters owner since = t.feedCounters owner since := by
  simp only [feedCounters, joined_filter, h.rowsFor_same]

theorem labelCounts_same : s.labelCounts owner = t.labelCounts owner := by
  unfold labelCounts
  simp only [← h.labelsOf_same]
  refine List.map_congr_left fun l hl => ?_
  obtain ⟨hmem, howner⟩ := List.mem_filter.mp (List.mem_mergeSort.mp hl)
  have hlabeling := h.sameLabels.labeling_same ⟨l, hmem, rfl, of_decide_eq_true howner⟩
  have hcount := h.left.ascending.copies.filter_same h.right.ascending.copies
    (p := fun c => c.owner = owner ∧ c.unread ∧ s.labelings.contains (Labeling.mk l.id c.article))
    fun c hc => h.same.copies c (of_decide_eq_true hc).1
  rw [List.countP_eq_length_filter, List.countP_eq_length_filter, hcount]
  simp only [hlabeling]

end Apart

end Store

end Newsfeed
