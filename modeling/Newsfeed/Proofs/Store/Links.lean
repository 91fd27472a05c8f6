import Newsfeed.Proofs.Store.Sound

/-!
Numbers in reachable stores are positive, and a feed or category stands in a category that is there
or in none. So number 0 is free to stand for what is in no category.
-/

namespace Newsfeed.Store

/-- The numbers of a table start at one. -/
structure Positive (ids : List Int) (next : Nat) : Prop where
  next : 0 < next
  ids : ∀ i ∈ ids, 0 < i

theorem Positive.push {ids : List Int} {next : Nat} (h : Positive ids next) :
    Positive (ids ++ [(next : Int)]) (next + 1) := by
  refine ⟨Nat.succ_pos next, fun i hi => ?_⟩
  rcases List.mem_append.mp hi with hi | hi
  · exact h.ids i hi
  · rw [List.mem_singleton.mp hi]
    exact Int.natCast_pos.mpr h.next

theorem Positive.skip {ids : List Int} {next : Nat} (h : Positive ids next) :
    Positive ids (next + 1) := ⟨Nat.succ_pos next, h.ids⟩

structure Linked (s : Store) : Prop where
  categories : Positive (s.categories.map Category.id) s.next.categories
  feeds : Positive (s.feeds.map Feed.id) s.next.feeds
  labels : Positive (s.labels.map Label.id) s.next.labels
  category_parent : ∀ c ∈ s.categories, isNothingOr c.parent (s.categories.map Category.id)
  feed_category : ∀ f ∈ s.feeds, isNothingOr f.category (s.categories.map Category.id)

theorem linked_empty : Linked empty := by
  constructor <;> simp [empty] <;> exact ⟨Nat.one_pos, by simp⟩

theorem linked_of_step {s t : Store} (hstep : Step s t) (h : Linked s) : Linked t := by
  cases hstep with
  | category row hid hparent =>
    exact { h with
      categories := by
        rw [List.map_append, List.map_singleton, hid]
        exact h.categories.push
      category_parent := fun c hc => by
        rcases List.mem_append.mp hc with hc | hc
        · exact isNothingOr_mono (by rw [List.map_append]; exact List.subset_append_left _ _)
            (h.category_parent c hc)
        · rw [List.mem_singleton.mp hc]
          exact hparent
      feed_category := fun f hf => isNothingOr_mono
        (by rw [List.map_append]; exact List.subset_append_left _ _) (h.feed_category f hf) }
  | feed row hid hurl hcategory =>
    exact { h with
      feeds := by
        rw [List.map_append, List.map_singleton, hid]
        exact h.feeds.push
      feed_category := fun f hf => by
        rcases List.mem_append.mp hf with hf | hf
        · exact h.feed_category f hf
        · rw [List.mem_singleton.mp hf]
          exact hcategory }
  | label row hid hcaption =>
    exact { h with
      labels := by
        rw [List.map_append, List.map_singleton, hid]
        exact h.labels.push }
  | _ => exact { h with }

theorem Reachable.linked {s : Store} (h : Reachable s) : Linked s :=
  h.induction linked_empty fun _ _ => linked_of_step

/-- Articles are numbered from one on too. A number may be skipped. -/
theorem articles_of_step {s t : Store} (hstep : Step s t)
    (h : Positive (s.articles.map Article.id) s.next.articles) :
    Positive (t.articles.map Article.id) t.next.articles := by
  cases hstep with
  | article row copy entered updated read hid =>
    rw [List.map_append, List.map_singleton, hid]
    exact h.push
  | copy row copy => exact h.skip
  | content row hrow content =>
    refine ⟨h.next, fun i hi => ?_⟩
    rw [List.map_map] at hi
    obtain ⟨a, ha, rfl⟩ := List.mem_map.mp hi
    rw [Function.comp_apply, apply_ite Article.id, ite_self]
    exact h.ids a.id (List.mem_map_of_mem ha)
  | _ => exact h

theorem Reachable.article_pos {s : Store} (h : Reachable s) {a : Article} (ha : a ∈ s.articles) :
    0 < a.id := by
  have harticles := h.induction (p := fun s => Positive (s.articles.map Article.id) s.next.articles)
    ⟨Nat.one_pos, by simp [empty]⟩ fun _ _ => articles_of_step
  exact harticles.ids a.id (List.mem_map_of_mem ha)

namespace Linked

variable {s : Store} (h : Linked s)
include h

theorem category_pos {c : Category} (hc : c ∈ s.categories) : 0 < c.id :=
  h.categories.ids c.id (List.mem_map_of_mem hc)

theorem feed_pos {f : Feed} (hf : f ∈ s.feeds) : 0 < f.id :=
  h.feeds.ids f.id (List.mem_map_of_mem hf)

theorem label_pos {l : Label} (hl : l ∈ s.labels) : 0 < l.id :=
  h.labels.ids l.id (List.mem_map_of_mem hl)

theorem category_pos_of_there {category? : Option Int} {category : Int}
    (hthere : isNothingOr category? (s.categories.map Category.id))
    (hcategory : category? = some category) : 0 < category := by
  rw [hcategory] at hthere
  exact h.categories.ids category (by simpa [isNothingOr] using hthere)

theorem category_parent_pos {c : Category} (hc : c ∈ s.categories) {parent : Int}
    (hparent : c.parent = some parent) : 0 < parent :=
  h.category_pos_of_there (h.category_parent c hc) hparent

theorem feed_category_pos {f : Feed} (hf : f ∈ s.feeds) {category : Int}
    (hcategory : f.category = some category) : 0 < category :=
  h.category_pos_of_there (h.feed_category f hf) hcategory

end Linked

end Newsfeed.Store
