import Newsfeed.Proofs.Counters.Descent
import Newsfeed.Proofs.Store.Ancestry

/-!
The walk down from a category beside the way up to it. Whatever the links are, the walk ends, and
what it has found are the categories from which the way up leads to that category within the
greatest depth.
-/

namespace Newsfeed

variable {categories : List Category} {id : Int}

namespace CategoryForest

variable {maxDepth : Nat}

theorem distinct_ofCategories :
    (ofCategories categories maxDepth).Distinct ↔ (categories.map Category.id).Nodup := by
  rw [Distinct, ofCategories, List.map_map]
  rfl

theorem link_iff_parent (h : (categories.map Category.id).Nodup) {parent : Int} :
    ⟨id, some parent⟩ ∈ (ofCategories categories maxDepth).links ↔
      parent? categories id = some parent := by
  rw [parent?_eq_some h]
  simp [ofCategories]

/-- The way up along the links is the steps up in the list, of which there is at least one. -/
theorem climb_iff_ancestor (h : (categories.map Category.id).Nodup) {top : Int} {k : Nat} :
    (ofCategories categories maxDepth).Climb top k id ↔
      1 ≤ k ∧ ancestor? categories k id = some top := by
  constructor
  · intro hclimb
    induction hclimb with
    | one hlink =>
      rw [ancestor?_one]
      exact ⟨Nat.le_refl 1, (link_iff_parent h).mp hlink⟩
    | @more k id parent hlink _ ih =>
      rw [ancestor?_succ ((link_iff_parent h).mp hlink)]
      exact ⟨Nat.le_add_left 1 k, ih.2⟩
  · intro hsteps
    obtain ⟨hk, hup⟩ := hsteps
    induction k generalizing id with
    | zero => omega
    | succ k ih =>
      obtain ⟨parent, hparent, hrest⟩ := Option.bind_eq_some_iff.mp hup
      have hlink : ⟨id, some parent⟩ ∈ (ofCategories categories maxDepth).links :=
        (link_iff_parent h).mpr hparent
      cases k with
      | zero =>
        obtain rfl : parent = top := Option.some.inj hrest
        exact .one hlink
      | succ k => exact .more hlink (ih (Nat.le_add_left 1 k) hrest)

theorem sorted_strict {ids : List Int} (h : ids.Nodup) : (sorted ids).Pairwise (· < ·) := by
  have hle : (sorted ids).Pairwise fun a b => decide (a ≤ b) = true :=
    List.pairwise_mergeSort
      (fun a b c hab hbc => by
        simp only [decide_eq_true_eq] at hab hbc ⊢
        exact Int.le_trans hab hbc)
      (fun a b => by simpa using Int.le_total a b) ids
  have hne : (sorted ids).Pairwise (· ≠ ·) := (List.mergeSort_perm _ _).nodup_iff.mpr h
  refine (hle.and hne).imp fun hboth => ?_
  have hab := of_decide_eq_true hboth.1
  have := hboth.2
  omega

/-- The walk stops after no more steps than there are categories and the one that it comes from. -/
theorem walk_done (maxDepth : Nat) (h : (categories.map Category.id).Nodup) (root : Int) :
    let f := ofCategories categories maxDepth
    let walk := f.steps root (categories.length + 1) ⟨[(root, 0)], []⟩
    Underway f root walk ∧ walk.pending = [] := by
  refine steps_done (distinct_ofCategories.mpr h) _ (underway_start _ root) ?_
  rw [ofCategories, List.length_map, List.length_singleton, List.length_nil]
  omega

theorem steps_add (f : CategoryForest) (root : Int) (m n : Nat) (w : Walk) :
    f.steps root (m + n) w = f.steps root n (f.steps root m w) := by
  induction m generalizing w with
  | zero => rw [Nat.zero_add, steps]
  | succ m ih => rw [Nat.succ_add, steps, ih, steps]

/-- The walk down from a category ends, however many steps it is given, and the categories that it
has found are those from which at least one and at most so many steps up lead to that category. They
are told in order, each once, and the category is not among them, not even where the way up from it
leads back to it. -/
theorem descendants_are_led_up_from (categories : List Category) (maxDepth : Nat) (root : Int)
    (h : (categories.map Category.id).Nodup) :
    let f := ofCategories categories maxDepth
    let walk (n : Nat) := f.steps root n ⟨[(root, 0)], []⟩
    (∀ n, categories.length + 1 ≤ n →
      (walk n).pending = [] ∧ f.descendants root = sorted (walk n).found) ∧
    (f.descendants root).Pairwise (· < ·) ∧
    ∀ id, id ∈ f.descendants root ↔
      id ≠ root ∧ ∃ k, 1 ≤ k ∧ k ≤ maxDepth ∧ ancestor? categories k id = some root := by
  intro f walk
  have hf : f.Distinct := distinct_ofCategories.mpr h
  obtain ⟨hend, hdone⟩ := walk_done maxDepth h root
  have hlength : f.links.length = categories.length := List.length_map _
  have hfound : f.descendants root = sorted (walk (categories.length + 1)).found := by
    rw [descendants, hlength]
  refine ⟨?_, ?_, ?_⟩
  · intro n hn
    obtain ⟨m, rfl⟩ := Nat.exists_eq_add_of_le hn
    have hsame : walk (categories.length + 1 + m) = walk (categories.length + 1) := by
      change f.steps root _ _ = _
      rw [steps_add]
      exact steps_of_done hdone m
    rw [hsame]
    exact ⟨hdone, hfound⟩
  · rw [hfound]
    exact sorted_strict hend.nodup
  · intro id
    have hclimb (k : Nat) : f.Climb root k id ↔ 1 ≤ k ∧ ancestor? categories k id = some root :=
      climb_iff_ancestor h
    have hbranch : id ∈ root :: f.descendants root ↔ _ := mem_branch hf
    simp only [hclimb] at hbranch
    have hroot : root ∉ f.descendants root := (List.nodup_cons.mp (branch_nodup hf root)).1
    constructor
    · intro hid
      have hne : id ≠ root := fun heq => hroot (heq ▸ hid)
      obtain ⟨k, hk, hpos, hup⟩ := (hbranch.mp (List.mem_cons_of_mem _ hid)).resolve_left hne
      exact ⟨hne, k, hpos, hk, hup⟩
    · intro hid
      obtain ⟨hne, k, hpos, hk, hup⟩ := hid
      exact (List.mem_cons.mp (hbranch.mpr (.inr ⟨k, hk, hpos, hup⟩))).resolve_left hne

/-- Three categories in a ring, one above itself and one under a category that is not listed. -/
theorem descendants_are_led_up_from_ring :
    let categories : List Category :=
      [⟨1, 1, some 3, "a"⟩, ⟨2, 1, some 1, "b"⟩, ⟨3, 1, some 2, "c"⟩, ⟨4, 1, some 4, "d"⟩,
        ⟨5, 1, some 99, "e"⟩]
    (categories.map Category.id).Nodup ∧
      2 ∈ (ofCategories categories 2).descendants 1 ∧
      3 ∈ (ofCategories categories 2).descendants 1 ∧
      1 ∉ (ofCategories categories 2).descendants 1 ∧
      4 ∉ (ofCategories categories 2).descendants 4 ∧
      3 ∉ (ofCategories categories 1).descendants 1 := by
  intro categories
  have hids : (categories.map Category.id).Nodup := by decide
  have hmem (depth : Nat) (root id : Int) :=
    (descendants_are_led_up_from categories depth root hids).2.2 id
  refine ⟨hids, (hmem 2 1 2).mpr ?_, (hmem 2 1 3).mpr ?_, ?_, ?_, ?_⟩
  · exact ⟨by decide, 1, by decide⟩
  · exact ⟨by decide, 2, by decide⟩
  · exact fun hid => ((hmem 2 1 1).mp hid).1 rfl
  · exact fun hid => ((hmem 2 4 4).mp hid).1 rfl
  · intro hid
    obtain ⟨-, k, hpos, hk, hup⟩ := (hmem 1 1 3).mp hid
    obtain rfl : k = 1 := by omega
    exact absurd hup (by decide)

end CategoryForest

end Newsfeed
