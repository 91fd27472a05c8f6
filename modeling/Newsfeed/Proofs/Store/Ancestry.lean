import Mathlib.Data.List.Induction
import Newsfeed.Proofs.Store.Effects
import Newsfeed.Proofs.Store.Links
import Newsfeed.Proofs.Store.Rows

/-!
The way up from a category, one step after the other, as a list of categories tells it. In a store
it leads to older categories, until it comes to one with none above it or to one that stands above
itself: such a category was added under the number that it was itself about to get.
-/

namespace Newsfeed

/-- The category above one. One that is not listed has none above it. -/
def parent? (categories : List Category) (id : Int) : Option Int :=
  (categories.find? fun c => c.id = id).bind Category.parent

/-- Where so many steps up from a category lead, if there are so many. -/
def ancestor? (categories : List Category) : Nat → Int → Option Int
  | 0, id => some id
  | k + 1, id => (parent? categories id).bind (ancestor? categories k)

variable {categories : List Category} {id : Int}

theorem ancestor?_one : ancestor? categories 1 id = parent? categories id :=
  Option.bind_fun_some _

theorem ancestor?_succ {parent : Int} (h : parent? categories id = some parent) (k : Nat) :
    ancestor? categories (k + 1) id = ancestor? categories k parent := by
  rw [ancestor?, h, Option.bind_some]

theorem parent?_of_mem (h : (categories.map Category.id).Nodup) {c : Category}
    (hc : c ∈ categories) : parent? categories c.id = c.parent := by
  have hone : ∀ a ∈ categories, ∀ b ∈ categories, decide (a.id = c.id) = true →
      decide (b.id = c.id) = true → a = b := by
    intro a ha b hb haid hbid
    have hid : a.id = b.id := (of_decide_eq_true haid).trans (of_decide_eq_true hbid).symm
    exact Store.eq_of_id h ha hb hid
  have hfind : categories.find? (fun b => b.id = c.id) = some c :=
    (Store.find_iff hone).mpr ⟨hc, decide_eq_true rfl⟩
  rw [parent?, hfind, Option.bind_some]

theorem listed_of_parent? {parent : Int} (h : parent? categories id = some parent) :
    ∃ c ∈ categories, c.id = id ∧ c.parent = some parent := by
  obtain ⟨c, hfind, hc⟩ := Option.bind_eq_some_iff.mp h
  have hid : c.id = id := by simpa using List.find?_some hfind
  exact ⟨c, List.mem_of_find?_eq_some hfind, hid, hc⟩

theorem parent?_eq_some {parent : Int} (h : (categories.map Category.id).Nodup) :
    parent? categories id = some parent ↔
      ∃ c ∈ categories, c.id = id ∧ c.parent = some parent := by
  constructor
  · exact listed_of_parent?
  · rintro ⟨c, hc, rfl, hparent⟩
    rw [parent?_of_mem h hc, hparent]

namespace Store

/-- No category stands under a younger one. -/
def Descends (s : Store) : Prop :=
  ∀ c ∈ s.categories, ∀ parent, c.parent = some parent → parent ≤ c.id

variable {s t : Store}

theorem descends_of_step (hstep : Step s t) (hs : Sound s) (h : Descends s) : Descends t := by
  cases hstep with
  | category row hid hparent =>
    intro c hc parent hp
    rcases List.mem_append.mp hc with hc | hc
    · exact h c hc parent hp
    · rw [List.mem_singleton.mp hc] at hp ⊢
      rw [hp] at hparent
      have hthere : parent ∈ s.categories.map Category.id ∨ parent = row.id := by
        simpa [isNothingOr] using hparent
      rcases hthere with hold | hself
      · have := hs.categories.below parent hold
        omega
      · exact Int.le_of_eq hself
  | _ => exact h

theorem Reachable.descends (h : Reachable s) : Descends s := by
  have hboth := h.induction (p := fun s => Sound s ∧ Descends s)
    ⟨sound_empty, fun c hc => nomatch hc⟩ fun _ _ hstep h =>
      ⟨sound_of_step hstep h.1, descends_of_step hstep h.1 h.2⟩
  exact hboth.2

theorem Descends.parent_le (h : Descends s) {parent : Int}
    (hparent : parent? s.categories id = some parent) : parent ≤ id := by
  obtain ⟨c, hc, rfl, habove⟩ := listed_of_parent? hparent
  exact h c hc parent habove

theorem Descends.ancestor_le (h : Descends s) {top : Int} {k : Nat}
    (hup : ancestor? s.categories k id = some top) : top ≤ id := by
  induction k generalizing id with
  | zero => exact Int.le_of_eq (Option.some.inj hup).symm
  | succ k ih =>
    obtain ⟨parent, hparent, hrest⟩ := Option.bind_eq_some_iff.mp hup
    exact Int.le_trans (ih hrest) (h.parent_le hparent)

/-- What stands above itself is its own parent. -/
theorem Descends.own_parent (h : Descends s) {k : Nat} (hk : 0 < k)
    (hup : ancestor? s.categories k id = some id) : parent? s.categories id = some id := by
  cases k with
  | zero => omega
  | succ k =>
    obtain ⟨parent, hparent, hrest⟩ := Option.bind_eq_some_iff.mp hup
    have hdown := h.parent_le hparent
    have hback := h.ancestor_le hrest
    rw [hparent, Int.le_antisymm hdown hback]

/-- Every way up comes to a category with none above it, or with itself. -/
theorem exists_top (hs : Sound s) (hl : Linked s) (h : Descends s) {c : Category}
    (hc : c ∈ s.categories) :
    ∃ top ∈ s.categories, ∃ k, ancestor? s.categories k c.id = some top.id ∧
      (top.parent = none ∨ top.parent = some top.id) := by
  -- Every step up goes to a smaller number, and numbers are positive.
  induction hn : c.id.toNat using Nat.strongRecOn generalizing c with
  | ind n ih =>
    cases hparent : c.parent with
    | none => exact ⟨c, hc, 0, rfl, .inl hparent⟩
    | some parent =>
      have hthere := hl.category_parent c hc
      rw [hparent] at hthere
      obtain ⟨p, hp, rfl⟩ : ∃ p ∈ s.categories, p.id = parent := by
        simpa [isNothingOr] using hthere
      by_cases hself : p.id = c.id
      · exact ⟨c, hc, 0, rfl, .inr (by rw [hparent, hself])⟩
      · have hle := h c hc p.id hparent
        have hpos := hl.category_pos hc
        obtain ⟨top, htop, k, hup, hend⟩ := ih p.id.toNat (by omega) hp rfl
        have hstep : parent? s.categories c.id = some p.id := by
          rw [parent?_of_mem hs.categories.nodup hc, hparent]
        exact ⟨top, htop, k + 1, (ancestor?_succ hstep k).trans hup, hend⟩

/-- The categories that a write adds. -/
theorem mem_categories_after (o : Operation) (s : Store) {c : Category} :
    c ∈ (o.after s).categories ↔ c ∈ s.categories ∨
      o = .addCategory c.owner c.parent c.title ∧ s.next.categories = c.id ∧
        isNothingOr c.parent (s.categories.map Category.id ++ [c.id]) := by
  cases o with
  | addCategory owner parent title =>
    rw [Operation.after_addCategory, List.map_append, List.map_singleton]
    split
    case isTrue hparent =>
      simp only [List.mem_append, List.mem_singleton]
      refine or_congr_right ⟨?_, ?_⟩
      · rintro rfl
        exact ⟨rfl, rfl, hparent⟩
      · rintro ⟨hsame, hid, -⟩
        obtain ⟨rfl, rfl, rfl⟩ := Operation.addCategory.inj hsame
        rw [hid]
    case isFalse hparent =>
      refine (or_iff_left ?_).symm
      rintro ⟨hsame, hid, hthere⟩
      obtain ⟨rfl, rfl, rfl⟩ := Operation.addCategory.inj hsame
      rw [hid] at hparent
      exact hparent hthere
  | addFeed f =>
    obtain ⟨feeds, n, heq⟩ := Operation.after_addFeed s f
    simp [heq]
  | addArticle a b =>
    rcases Operation.after_addArticle s a b with heq | ⟨articles, index, n, article, heq⟩ <;>
      simp [heq]
  | updateContent article content =>
    obtain ⟨articles, index, heq⟩ := Operation.after_updateContent s article content
    simp [heq]
  | addLabel owner caption =>
    rcases Operation.after_addLabel s owner caption with heq | heq <;> simp [heq]
  | assignLabel label article =>
    rcases Operation.after_assignLabel s label article with ⟨-, heq⟩ | ⟨-, labelings, -, heq⟩ <;>
      simp [heq, withLabelCaches]
  | addTag owner copy name =>
    rcases Operation.after_addTag s owner copy name with ⟨-, heq⟩ | ⟨-, tags, -, heq⟩ <;>
      simp [heq, withTagCache]
  | setPreference owner name value =>
    obtain ⟨prefs, heq⟩ := Operation.after_setPreference s owner name value
    simp [heq]

/-- The categories of a store are those that were added under a parent that was there, the
category itself included. -/
theorem mem_categories_iff (history : List Operation) {c : Category} :
    c ∈ (ofHistory history).categories ↔ ∃ before,
      before ++ [.addCategory c.owner c.parent c.title] <+: history ∧
      (ofHistory before).next.categories = c.id ∧
      isNothingOr c.parent ((ofHistory before).categories.map Category.id ++ [c.id]) := by
  induction history using List.reverseRecOn with
  | nil =>
    constructor
    · intro hc
      exact nomatch hc
    · rintro ⟨before, hprefix, -⟩
      simpa using List.prefix_nil.mp hprefix
  | append_singleton history o ih =>
    rw [ofHistory_concat, mem_categories_after, ih]
    constructor
    · rintro (⟨before, hprefix, hadded⟩ | ⟨rfl, hadded⟩)
      · exact ⟨before, hprefix.trans (List.prefix_append history [o]), hadded⟩
      · exact ⟨history, List.prefix_rfl, hadded⟩
    · rintro ⟨before, hprefix, hadded⟩
      rcases List.prefix_concat_iff.mp hprefix with hlast | hearlier
      · obtain ⟨rfl, ho⟩ := List.append_inj' hlast rfl
        exact .inr ⟨(List.singleton_inj.mp ho).symm, hadded⟩
      · exact .inl ⟨before, hearlier, hadded⟩

/-- The way up from a category comes back to it exactly where the category was added under the
number that it was about to get. It is then its own parent; there is no longer way round. Every way
up comes to an end: to a category without a parent or to one of those. -/
theorem comes_back_only_to_own_parent (history : List Operation) :
    let s := ofHistory history
    (∀ id, (∃ k, 0 < k ∧ ancestor? s.categories k id = some id) ↔
      ∃ before owner title,
        before ++ [.addCategory owner (some id) title] <+: history ∧
        (ofHistory before).next.categories = id) ∧
    (∀ id k, 0 < k → ancestor? s.categories k id = some id → parent? s.categories id = some id) ∧
    ∀ c ∈ s.categories, ∃ top ∈ s.categories, ∃ k,
      ancestor? s.categories k c.id = some top.id ∧
        (top.parent = none ∨ top.parent = some top.id) := by
  intro s
  have hreach : Reachable s := ⟨history, rfl⟩
  have hids := hreach.sound.categories.nodup
  refine ⟨fun id => ⟨?_, ?_⟩, ?_, ?_⟩
  · rintro ⟨k, hk, hup⟩
    obtain ⟨c, hc, rfl, hparent⟩ := (parent?_eq_some hids).mp (hreach.descends.own_parent hk hup)
    obtain ⟨before, hprefix, hid, -⟩ := (mem_categories_iff history).mp hc
    rw [hparent] at hprefix
    exact ⟨before, c.owner, c.title, hprefix, hid⟩
  · rintro ⟨before, owner, title, hprefix, hid⟩
    have hc : ⟨id, owner, some id, title⟩ ∈ s.categories :=
      (mem_categories_iff history).mpr ⟨before, hprefix, hid, by simp [isNothingOr]⟩
    refine ⟨1, Nat.one_pos, ?_⟩
    rw [ancestor?_one]
    exact (parent?_eq_some hids).mpr ⟨_, hc, rfl, rfl⟩
  · intro id k hk hup
    exact hreach.descends.own_parent hk hup
  · intro c hc
    exact exists_top hreach.sound hreach.linked hreach.descends hc

/-- The first category of an empty store gets the number 1. -/
theorem first_category_above_itself :
    ∃ id k, 0 < k ∧
      ancestor? (ofHistory [.addCategory 1 (some 1) "a"]).categories k id = some id :=
  ⟨1, 1, by decide⟩

end Store

end Newsfeed
