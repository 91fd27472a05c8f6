import Newsfeed.Proofs.Listing.Matching

/-!
Stores that hold the same rows in another order. Nothing that is read tells them apart.
-/

namespace Newsfeed

open Std Newsfeed.Text

namespace Store

/-- Each table holds the same rows, in one order or another. -/
structure SameRows (s t : Store) : Prop where
  categories : s.categories.Perm t.categories
  feeds : s.feeds.Perm t.feeds
  articles : s.articles.Perm t.articles
  index : s.index.Perm t.index
  copies : s.copies.Perm t.copies
  labels : s.labels.Perm t.labels
  labelings : s.labelings.Perm t.labelings
  tags : s.tags.Perm t.tags
  prefs : s.prefs.Perm t.prefs
  next : s.next = t.next

theorem SameRows.refl (s : Store) : SameRows s s := by constructor <;> rfl

variable {s t : Store}

theorem SameRows.sound (hsame : SameRows s t) (h : Sound s) : Sound t where
  categories := hsame.next ▸ h.categories.perm (hsame.categories.map _)
  feeds := hsame.next ▸ h.feeds.perm (hsame.feeds.map _)
  articles := hsame.next ▸ h.articles.perm (hsame.articles.map _)
  copies := hsame.next ▸ h.copies.perm (hsame.copies.map _)
  labels := hsame.next ▸ h.labels.perm (hsame.labels.map _)
  one_copy := (hsame.copies.map _).nodup_iff.mp h.one_copy
  captions := (hsame.labels.map _).nodup_iff.mp h.captions
  index := (hsame.index.map _).nodup_iff.mp h.index
  index_article := fun _ hrow => (hsame.articles.map _).subset
    (h.index_article ((hsame.index.map _).symm.subset hrow))
  copy_article := fun _ hcopy => (hsame.articles.map _).subset
    (h.copy_article ((hsame.copies.map _).symm.subset hcopy))
  copy_feed := fun f hf => isNothingOr_mono (hsame.feeds.map _).subset
    (h.copy_feed f ((hsame.copies.map _).mem_iff.mpr hf))
  entered := fun a ha => h.entered a (hsame.articles.mem_iff.mpr ha)
  read := fun r hr => h.read r ((hsame.copies.map _).mem_iff.mpr hr)

/-! ### Single rows -/

/-- Where no two rows pass a test, the one that does is found in any order. -/
theorem find_perm {α : Type} {rows rows' : List α} {p : α → Bool} (hperm : rows.Perm rows')
    (hone : ∀ a ∈ rows, ∀ b ∈ rows, p a → p b → a = b) : rows.find? p = rows'.find? p := by
  refine Option.ext fun a => ?_
  rw [find_iff hone, find_iff fun a ha b hb =>
    hone a (hperm.mem_iff.mpr ha) b (hperm.mem_iff.mpr hb), hperm.mem_iff]

theorem feed_same (hsame : SameRows s t) (h : Sound s) (owner id : Int) :
    s.feed? owner id = t.feed? owner id := by
  refine find_perm hsame.feeds fun f hf g hg hfid hgid => ?_
  simp only [decide_eq_true_eq] at hfid hgid
  exact eq_of_id h.feeds.nodup hf hg (hfid.1.trans hgid.1.symm)

theorem category_same (hsame : SameRows s t) (h : Sound s) (owner id : Int) :
    s.category? owner id = t.category? owner id := by
  refine find_perm hsame.categories fun c hc d hd hcid hdid => ?_
  simp only [decide_eq_true_eq] at hcid hdid
  exact eq_of_id h.categories.nodup hc hd (hcid.1.trans hdid.1.symm)

theorem label_same (hsame : SameRows s t) (h : Sound s) (owner id : Int) :
    s.label? owner id = t.label? owner id := by
  refine find_perm hsame.labels fun l hl m hm hlid hmid => ?_
  simp only [decide_eq_true_eq] at hlid hmid
  exact eq_of_id h.labels.nodup hl hm (hlid.1.trans hmid.1.symm)

theorem words_same (hsame : SameRows s t) (h : Sound s) (article : Int) :
    s.indexedWords article = t.indexedWords article := by
  unfold indexedWords
  rw [find_perm hsame.index fun r hr q hq hrid hqid => ?_]
  simp only [decide_eq_true_eq] at hrid hqid
  exact eq_of_id h.index hr hq (hrid.trans hqid.symm)

/-! ### Sorted rows -/

/-- Rows that an order tells apart are sorted into one list however they stood before. -/
theorem mergeSort_perm_eq {α : Type} {le : α → α → Bool} {rows rows' : List α}
    (hperm : rows.Perm rows') (htrans : ∀ a b c, le a b → le b c → le a c)
    (htotal : ∀ a b, le a b || le b a)
    (hanti : ∀ a ∈ rows, ∀ b ∈ rows, le a b → le b a → a = b) :
    rows.mergeSort le = rows'.mergeSort le := by
  have hsorted := (List.mergeSort_perm rows le).trans
    (hperm.trans (List.mergeSort_perm rows' le).symm)
  refine hsorted.eq_of_pairwise (fun a b ha hb => ?_) (List.pairwise_mergeSort htrans htotal rows)
    (List.pairwise_mergeSort htrans htotal rows')
  exact hanti a (List.mem_mergeSort.mp ha) b
    (hperm.mem_iff.mpr (List.mem_mergeSort.mp hb))

theorem categories_same (hsame : SameRows s t) (h : Sound s) (owner : Int) :
    s.categoriesOfOwner owner = t.categoriesOfOwner owner := by
  refine mergeSort_perm_eq (hsame.categories.filter _) (fun a b c hab hbc => ?_) (fun a b => ?_)
    fun a ha b hb hab hba => ?_
  · simp only [decide_eq_true_eq] at *
    omega
  · simp only [Bool.or_eq_true, decide_eq_true_eq]
    omega
  · simp only [decide_eq_true_eq] at hab hba
    exact eq_of_id h.categories.nodup (List.mem_filter.mp ha).1 (List.mem_filter.mp hb).1
      (by omega)

section Captions

variable {a b c : Label}

theorem byCaption (a b : Label) : (compare a.caption b.caption != .gt) =
    (compare a.caption b.caption).isLE := by
  cases compare a.caption b.caption <;> rfl

theorem byCaption_trans (hab : compare a.caption b.caption != .gt)
    (hbc : compare b.caption c.caption != .gt) : compare a.caption c.caption != .gt := by
  rw [byCaption] at *
  exact TransOrd.isLE_trans hab hbc

theorem byCaption_total (a b : Label) : compare a.caption b.caption != .gt ||
    compare b.caption a.caption != .gt := by
  rw [byCaption, byCaption, OrientedOrd.eq_swap (a := b.caption)]
  cases compare a.caption b.caption <;> rfl

/-- No two labels of an owner have one caption. -/
theorem eq_of_captions (h : Sound s) (ha : a ∈ s.labels) (hb : b ∈ s.labels)
    (howner : a.owner = b.owner) (hab : compare a.caption b.caption != .gt)
    (hba : compare b.caption a.caption != .gt) : a = b := by
  rw [byCaption] at hab hba
  have hcaption := LawfulEqOrd.eq_of_compare (OrientedCmp.isLE_antisymm hab hba)
  refine List.inj_on_of_nodup_map h.captions ha hb ?_
  simp only [captionKey, howner, hcaption]

end Captions

theorem findLabel_same (hsame : SameRows s t) (h : Sound s) (owner : Int) (caption : String) :
    s.findLabel? owner caption = t.findLabel? owner caption := by
  unfold findLabel?
  simp only
  rw [mergeSort_perm_eq (hsame.labels.filter _) (fun a b c hab hbc => ?_) (fun a b => ?_)
    fun a ha b hb hab hba => ?_]
  · exact byCaption_trans hab hbc
  · exact byCaption_total a b
  · obtain ⟨ha, hao⟩ := List.mem_filter.mp ha
    obtain ⟨hb, hbo⟩ := List.mem_filter.mp hb
    simp only [decide_eq_true_eq] at hao hbo
    exact eq_of_captions h ha hb (hao.1.trans hbo.1.symm) hab hba

/-! ### Rows of listings -/

theorem facts_same (hsame : SameRows s t) (h : Sound s) (r : Joined) :
    s.facts r = t.facts r := by
  have hlabeling (l : Labeling) : s.labelings.contains l = t.labelings.contains l := by
    rw [Bool.eq_iff_iff, List.contains_iff_mem, List.contains_iff_mem, hsame.labelings.mem_iff]
  have hlabelOf (owner : Int) : s.hasLabelOf r.article.id owner =
      t.hasLabelOf r.article.id owner := by
    rw [Bool.eq_iff_iff]
    simp only [hasLabelOf, List.any_eq_true, hsame.labelings.mem_iff, hsame.labels.mem_iff,
      decide_eq_true_eq]
  have htag (g : Tag) : s.tags.contains g = t.tags.contains g := by
    rw [Bool.eq_iff_iff, List.contains_iff_mem, List.contains_iff_mem, hsame.tags.mem_iff]
  simp only [facts, hlabeling, hlabelOf, htag, words_same hsame h]

theorem isRow_same (hsame : SameRows s t) {r : Joined} : IsRow s r ↔ IsRow t r := by
  constructor
  · intro hr
    exact ⟨hsame.articles.mem_iff.mp hr.article, hsame.copies.mem_iff.mp hr.copy, hr.same,
      fun f => by rw [hr.feed f, hsame.feeds.mem_iff]⟩
  · intro hr
    exact ⟨hsame.articles.mem_iff.mpr hr.article, hsame.copies.mem_iff.mpr hr.copy, hr.same,
      fun f => by rw [hr.feed f, hsame.feeds.mem_iff]⟩

theorem matching_same (hsame : SameRows s t) (h : Sound s) (owner : Int) (archived : Bool)
    (filter : Predicate) :
    (s.matching owner archived filter).Perm (t.matching owner archived filter) := by
  have ht := hsame.sound h
  refine (List.perm_ext_iff_of_nodup (matching_copies h owner archived filter).of_map
    (matching_copies ht owner archived filter).of_map).mpr fun r => ?_
  rw [mem_matching h, mem_matching ht]
  constructor
  · rintro ⟨hr, hkept, howner, hadmits⟩
    exact ⟨(isRow_same hsame).mp hr, hkept, howner, facts_same hsame h r ▸ hadmits⟩
  · rintro ⟨hr, hkept, howner, hadmits⟩
    exact ⟨(isRow_same hsame).mpr hr, hkept, howner, facts_same hsame h r ▸ hadmits⟩

end Store

end Newsfeed
