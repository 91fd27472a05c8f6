import Mathlib.Data.List.Nodup
import Newsfeed.Proofs.Store.History

/-!
What holds in every store that writes can lead to: rows have numbers of their own, keys are not
repeated, rows that are named are there, and times are stored times.
-/

namespace Newsfeed

open Newsfeed.Time

/-- The numbers of a table: no two rows have the same, and the next row gets a greater one. -/
structure Numbered (ids : List Int) (next : Nat) : Prop where
  nodup : ids.Nodup
  below : ∀ i ∈ ids, i < next

namespace Numbered

variable {ids : List Int} {next : Nat}

theorem skip (h : Numbered ids next) : Numbered ids (next + 1) :=
  ⟨h.nodup, fun i hi => by have := h.below i hi; omega⟩

theorem perm {ids' : List Int} (h : Numbered ids next) (hperm : ids.Perm ids') :
    Numbered ids' next :=
  ⟨hperm.nodup_iff.mp h.nodup, fun i hi => h.below i (hperm.mem_iff.mpr hi)⟩

theorem push (h : Numbered ids next) : Numbered (ids ++ [(next : Int)]) (next + 1) := by
  have hnew : (next : Int) ∉ ids := fun hi => by have := h.below _ hi; omega
  refine ⟨?_, fun i hi => ?_⟩
  · rw [List.nodup_append_comm]
    exact List.nodup_cons.mpr ⟨hnew, h.nodup⟩
  · rcases List.mem_append.mp hi with hi | hi
    · have := h.below i hi
      omega
    · rw [List.mem_singleton.mp hi]
      omega

end Numbered

/-- The copy without what is cached in it. -/
def Copy.uncached (c : Copy) : Copy := { c with labelCache := "", tagCache := "" }

namespace Store

theorem isNothingOr_mono {n? : Option Int} {ids ids' : List Int} (hsub : ids ⊆ ids')
    (h : isNothingOr n? ids) : isNothingOr n? ids' := by
  cases n? with
  | none => rfl
  | some n =>
    have hmem : n ∈ ids := by simpa [isNothingOr] using h
    simpa [isNothingOr] using hsub hmem

theorem withLabelCaches_uncached (s : Store) (article : Int) :
    (s.withLabelCaches article).copies.map Copy.uncached = s.copies.map Copy.uncached := by
  simp only [withLabelCaches, List.map_map]
  refine List.map_congr_left fun c _ => ?_
  by_cases hc : c.article = article
  · simp [hc, Copy.uncached]
  · simp [hc]

theorem withTagCache_uncached (s : Store) (copy : Int) :
    (s.withTagCache copy).copies.map Copy.uncached = s.copies.map Copy.uncached := by
  simp only [withTagCache, List.map_map]
  refine List.map_congr_left fun c _ => ?_
  by_cases hc : c.id = copy
  · simp [hc, Copy.uncached]
  · simp [hc]

/-- An owner has one copy of an article, so the two are a key of the copies. -/
def copyKey (c : Copy) : Int × Int := (c.owner, c.article)

def captionKey (l : Label) : Int × String := (l.owner, l.caption)

structure Sound (s : Store) : Prop where
  categories : Numbered (s.categories.map Category.id) s.next.categories
  feeds : Numbered (s.feeds.map Feed.id) s.next.feeds
  articles : Numbered (s.articles.map Article.id) s.next.articles
  copies : Numbered (s.copies.map Copy.id) s.next.copies
  labels : Numbered (s.labels.map Label.id) s.next.labels
  one_copy : (s.copies.map copyKey).Nodup
  captions : (s.labels.map captionKey).Nodup
  index : (s.index.map IndexRow.article).Nodup
  index_article : s.index.map IndexRow.article ⊆ s.articles.map Article.id
  copy_article : s.copies.map Copy.article ⊆ s.articles.map Article.id
  copy_feed : ∀ f ∈ s.copies.map Copy.feed, isNothingOr f (s.feeds.map Feed.id)
  entered : ∀ a ∈ s.articles, ∃ t : Instant, a.dateEntered = t.storedText
  read : ∀ r ∈ s.copies.map Copy.lastRead, ∃ t : Option Instant, r = t.map Instant.storedText

theorem sound_empty : Sound empty := by
  constructor <;> simp [empty] <;> exact ⟨List.nodup_nil, by simp⟩

variable {s : Store}

/-- What is cached in the copies has no part in soundness. -/
private theorem sound_of_uncached {copies : List Copy} (h : Sound s)
    (hc : copies.map Copy.uncached = s.copies.map Copy.uncached) : Sound { s with copies } := by
  have hmap {β : Type} (g : Copy → β) (hg : ∀ c, g c.uncached = g c) :
      copies.map g = s.copies.map g := by
    have hcomp : g = g ∘ Copy.uncached := funext fun c => (hg c).symm
    rw [hcomp, ← List.map_map, hc, List.map_map]
  exact { h with
    copies := by rw [hmap Copy.id fun _ => rfl]; exact h.copies
    one_copy := by rw [hmap copyKey fun _ => rfl]; exact h.one_copy
    copy_article := by rw [hmap Copy.article fun _ => rfl]; exact h.copy_article
    copy_feed := by rw [hmap Copy.feed fun _ => rfl]; exact h.copy_feed
    read := by rw [hmap Copy.lastRead fun _ => rfl]; exact h.read }

theorem nodup_push {α β : Type} {key : α → β} {rows : List α} {row : α}
    (h : (rows.map key).Nodup) (hnew : ∀ r ∈ rows, key r ≠ key row) :
    ((rows ++ [row]).map key).Nodup := by
  rw [List.map_append, List.nodup_append_comm]
  refine List.nodup_cons.mpr ⟨fun hmem => ?_, h⟩
  obtain ⟨r, hr, hkey⟩ := List.mem_map.mp (show key row ∈ rows.map key from hmem)
  exact hnew r hr hkey

private theorem mem_push {α β : Type} {f : α → β} {rows : List α} {row : α} {b : β}
    (h : b ∈ (rows ++ [row]).map f) : b ∈ rows.map f ∨ b = f row := by
  simpa using h

private theorem sound_copy (h : Sound s) (copy : Copy) (read : Option Instant)
    (hcopy : copy.id = s.next.copies) (harticle : copy.article ∈ s.articles.map Article.id)
    (hone : ∀ c ∈ s.copies, ¬(c.owner = copy.owner ∧ c.article = copy.article))
    (hfeed : isNothingOr copy.feed (s.feeds.map Feed.id))
    (hread : copy.lastRead = read.map Instant.storedText) :
    Sound { s with copies := s.copies ++ [copy], next.copies := s.next.copies + 1 } := by
  exact { h with
    copies := by
      rw [List.map_append, List.map_singleton, hcopy]
      exact h.copies.push
    one_copy := nodup_push h.one_copy fun c hc hkey => hone c hc (Prod.mk.inj hkey)
    copy_article := fun i hi => by
      rcases mem_push hi with hi | rfl
      · exact h.copy_article hi
      · exact harticle
    copy_feed := fun f hf => by
      rcases mem_push hf with hf | rfl
      · exact h.copy_feed f hf
      · exact hfeed
    read := fun r hr => by
      rcases mem_push hr with hr | rfl
      · exact h.read r hr
      · exact ⟨read, hread⟩ }

private theorem sound_article (h : Sound s) (row : Article) (entered : Instant)
    (words : List String) (hid : row.id = s.next.articles)
    (hentered : row.dateEntered = entered.storedText) :
    Sound { s with
      articles := s.articles ++ [row]
      index := s.index ++ [⟨row.id, words⟩]
      next.articles := s.next.articles + 1 } := by
  have hnew : ∀ r ∈ s.index, r.article ≠ row.id := fun r hr heq => by
    have := h.articles.below r.article (h.index_article (List.mem_map_of_mem hr))
    omega
  exact { h with
    articles := by
      rw [List.map_append, List.map_singleton, hid]
      exact h.articles.push
    index := nodup_push h.index hnew
    index_article := fun i hi => by
      rw [List.map_append, List.mem_append]
      rcases mem_push hi with hi | rfl
      · exact .inl (h.index_article hi)
      · exact .inr (by simp)
    copy_article := fun i hi => by
      rw [List.map_append]
      exact List.mem_append_left _ (h.copy_article hi)
    entered := fun a ha => by
      rcases List.mem_append.mp ha with ha | ha
      · exact h.entered a ha
      · rw [List.mem_singleton.mp ha]
        exact ⟨entered, hentered⟩ }

private theorem sound_content (h : Sound s) (row : Article) (hrow : row ∈ s.articles)
    (content hash : String) (words : List String) :
    Sound { s with
      articles := s.articles.map fun a =>
        if a.id = row.id then { a with content, contentHash := hash } else a
      index := (s.index.filter fun r => r.article ≠ row.id) ++ [⟨row.id, words⟩] } := by
  have hids : (s.articles.map fun a =>
      if a.id = row.id then { a with content, contentHash := hash } else a).map Article.id =
      s.articles.map Article.id := by
    rw [List.map_map]
    refine List.map_congr_left fun a _ => ?_
    by_cases ha : a.id = row.id
    · simp [ha]
    · simp [ha]
  exact { h with
    articles := by rw [hids]; exact h.articles
    index := nodup_push (h.index.sublist (List.filter_sublist.map _)) fun r hr => by
      simpa using (List.mem_filter.mp hr).2
    index_article := fun i hi => by
      rw [hids]
      rcases mem_push hi with hi | rfl
      · exact h.index_article ((List.filter_sublist.map _).subset hi)
      · exact List.mem_map_of_mem hrow
    copy_article := by rw [hids]; exact h.copy_article
    entered := fun a ha => by
      obtain ⟨b, hb, rfl⟩ := List.mem_map.mp ha
      by_cases hid : b.id = row.id
      · rw [if_pos hid]; exact h.entered b hb
      · rw [if_neg hid]; exact h.entered b hb }

theorem sound_of_step {t : Store} (hstep : Step s t) (h : Sound s) : Sound t := by
  cases hstep with
  | stays => exact h
  | category row hid hparent =>
    exact { h with
      categories := by
        rw [List.map_append, List.map_singleton, hid]
        exact h.categories.push }
  | feed row hid hurl hcategory =>
    exact { h with
      feeds := by
        rw [List.map_append, List.map_singleton, hid]
        exact h.feeds.push
      copy_feed := fun f hf => isNothingOr_mono
        (by rw [List.map_append]; exact List.subset_append_left _ _) (h.copy_feed f hf) }
  | article row copy entered updated read hid hguid hhash hentered hupdated hcopy harticle hone
      hfeed hread =>
    refine sound_copy (sound_article h row entered _ hid hentered) copy read hcopy ?_ ?_ hfeed hread
    · rw [harticle]
      exact List.mem_map_of_mem (List.mem_append_right _ (List.mem_singleton_self row))
    · rw [harticle]
      exact hone
  | copy row copy read hrow hcopy harticle hone hfeed hread =>
    have hskip : Sound { s with next.articles := s.next.articles + 1 } :=
      { h with articles := h.articles.skip }
    refine sound_copy hskip copy read hcopy ?_ ?_ hfeed hread
    · rw [harticle]
      exact List.mem_map_of_mem hrow
    · rw [harticle]
      exact hone
  | content row hrow content => exact sound_content h row hrow content _ _
  | label row hid hcaption =>
    exact { h with
      labels := by
        rw [List.map_append, List.map_singleton, hid]
        exact h.labels.push
      captions := nodup_push h.captions fun l hl hkey => hcaption l hl (Prod.mk.inj hkey) }
  | labeling row hnew hlabel harticle =>
    have hrow : Sound { s with labelings := s.labelings ++ [row] } := { h with }
    exact sound_of_uncached hrow (withLabelCaches_uncached _ row.article)
  | relabeling row hold => exact sound_of_uncached h (withLabelCaches_uncached s row.article)
  | tag row hnew hcopy =>
    have hrow : Sound { s with tags := s.tags ++ [row] } := { h with }
    exact sound_of_uncached hrow (withTagCache_uncached _ row.copy)
  | retag row hold => exact sound_of_uncached h (withTagCache_uncached s row.copy)
  | preference prefs => exact { h with }

theorem Reachable.sound (h : Reachable s) : Sound s :=
  h.induction sound_empty fun _ _ => sound_of_step

end Store

end Newsfeed
