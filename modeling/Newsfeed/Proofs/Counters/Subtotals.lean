import Mathlib.Algebra.BigOperators.Group.List.Basic
import Newsfeed.Proofs.Counters.Ancestors
import Newsfeed.Proofs.Counters.Tally

/-!
Totals told from the bottom up. What a category counts with all below it is what it counts by itself
and the totals of its children, as long as the walk down from it sees all that is below: the
branches of its children then share nothing and leave nothing out.
-/

namespace Newsfeed

namespace CategoryForest

variable {f : CategoryForest} {top other root id : Int} {k l : Nat}

theorem Climb.pos (h : f.Climb top k id) : 1 ≤ k := by
  cases h <;> omega

theorem Climb.trans (h : f.Climb top k other) (h' : f.Climb other l id) :
    f.Climb top (k + l) id := by
  induction h' with
  | one hlink => exact .more hlink h
  | more hlink _ ih => exact .more hlink ih

/-- Of two categories that one way up leads to, one is above the other. -/
theorem Climb.linear (hf : f.Distinct) (h : f.Climb top k id) (h' : f.Climb other l id) :
    top = other ∨ (∃ m, f.Climb top m other) ∨ ∃ m, f.Climb other m top := by
  induction h generalizing l with
  | one hlink =>
    cases h' with
    | one hlink' => exact .inl (parent_unique hf hlink hlink')
    | more hlink' h' =>
      obtain rfl := parent_unique hf hlink hlink'
      exact .inr (.inr ⟨_, h'⟩)
  | more hlink h ih =>
    cases h' with
    | one hlink' =>
      obtain rfl := parent_unique hf hlink hlink'
      exact .inr (.inl ⟨_, h⟩)
    | more hlink' h' =>
      obtain rfl := parent_unique hf hlink hlink'
      exact ih h'

/-- All that is below a category is so within the greatest depth. -/
def IsShallow (f : CategoryForest) (root : Int) : Prop :=
  ∀ k id, f.Climb root k id → k ≤ f.maxDepth

theorem Climb.rounds (h : f.Climb root k root) (n : Nat) : f.Climb root (k + n * k) root := by
  induction n with
  | zero => simpa using h
  | succ n ih =>
    rw [Nat.succ_mul, ← Nat.add_assoc]
    exact ih.trans h

/-- A way up that comes back could be gone round any number of times. -/
theorem IsShallow.acyclic (h : f.IsShallow root) : ¬f.Climb root k root := by
  intro hround
  have hbound := h _ _ (hround.rounds f.maxDepth)
  have hlong := Nat.le_mul_of_pos_right f.maxDepth hround.pos
  have := hround.pos
  omega

theorem IsShallow.below (h : f.IsShallow root) (hid : f.Climb root k id) : f.IsShallow id := by
  intro l other hother
  have hbound := h _ _ (hid.trans hother)
  omega

theorem IsShallow.mem_branch (h : f.IsShallow root) (hf : f.Distinct) :
    id ∈ root :: f.descendants root ↔ id = root ∨ ∃ k, f.Climb root k id := by
  rw [CategoryForest.mem_branch hf]
  refine or_congr_right (exists_congr fun k => ?_)
  exact and_iff_right_of_imp (h k id)

section Children

variable {child sibling : Int}

/-- A way up to a category passes one of its children last. -/
theorem exists_climb_iff : (∃ k, f.Climb root k id) ↔
    ∃ child ∈ f.children root, id = child ∨ ∃ k, f.Climb child k id := by
  constructor
  · rintro ⟨k, hclimb⟩
    induction hclimb with
    | @one id hlink => exact ⟨id, mem_children.mpr hlink, .inl rfl⟩
    | more hlink _ ih =>
      obtain ⟨child, hchild, rfl | ⟨l, habove⟩⟩ := ih
      · exact ⟨_, hchild, .inr ⟨1, .one hlink⟩⟩
      · exact ⟨child, hchild, .inr ⟨l + 1, .more hlink habove⟩⟩
  · rintro ⟨child, hchild, rfl | ⟨l, habove⟩⟩
    · exact ⟨1, .one (mem_children.mp hchild)⟩
    · exact ⟨1 + l, Climb.trans (.one (mem_children.mp hchild)) habove⟩

theorem children_nodup (hf : f.Distinct) (root : Int) : (f.children root).Nodup :=
  (List.mergeSort_perm _ _).nodup_iff.mpr (hf.sublist (List.filter_sublist.map _))

variable (hf : f.Distinct) (h : f.IsShallow root)
include hf h

/-- What is above a child is above the category or is it. -/
theorem not_climb_sibling (hchild : child ∈ f.children root)
    (hsibling : sibling ∈ f.children root) : ¬f.Climb child k sibling := by
  intro hclimb
  have hdown : f.Climb root 1 child := .one (mem_children.mp hchild)
  cases hclimb with
  | one hlink =>
    obtain rfl := parent_unique hf hlink (mem_children.mp hsibling)
    exact h.acyclic hdown
  | more hlink hup =>
    obtain rfl := parent_unique hf hlink (mem_children.mp hsibling)
    exact h.acyclic (hdown.trans hup)

theorem children_apart (hchild : child ∈ f.children root) (hsibling : sibling ∈ f.children root)
    (hne : child ≠ sibling) :
    (child :: f.descendants child).Disjoint (sibling :: f.descendants sibling) := by
  intro id hid hid'
  rcases (mem_branch hf).mp hid with rfl | ⟨k, -, hclimb⟩ <;>
    rcases (mem_branch hf).mp hid' with rfl | ⟨l, -, hclimb'⟩
  · exact hne rfl
  · exact not_climb_sibling hf h hsibling hchild hclimb'
  · exact not_climb_sibling hf h hchild hsibling hclimb
  · rcases hclimb.linear hf hclimb' with rfl | ⟨m, hup⟩ | ⟨m, hup⟩
    · exact hne rfl
    · exact not_climb_sibling hf h hchild hsibling hup
    · exact not_climb_sibling hf h hsibling hchild hup

theorem mem_descendants_iff_climb : id ∈ f.descendants root ↔ ∃ k, f.Climb root k id := by
  have hbranch : id ∈ root :: f.descendants root ↔ _ := h.mem_branch hf
  have hroot : root ∉ f.descendants root := (List.nodup_cons.mp (branch_nodup hf root)).1
  by_cases hid : id = root
  · subst hid
    exact iff_of_false hroot fun ⟨_, hclimb⟩ => h.acyclic hclimb
  · simpa [hid] using hbranch

/-- What is below a category are its children with what is below them. -/
theorem descendants_perm :
    (f.descendants root).Perm ((f.children root).flatMap fun c => c :: f.descendants c) := by
  have hbelow : (f.descendants root).Nodup := (List.nodup_cons.mp (branch_nodup hf root)).2
  have hbranches : ((f.children root).flatMap fun c => c :: f.descendants c).Nodup := by
    refine List.nodup_flatMap.mpr ⟨fun c _ => branch_nodup hf c, ?_⟩
    exact (children_nodup hf root).imp_of_mem fun hc hc' hne => children_apart hf h hc hc' hne
  refine (List.perm_ext_iff_of_nodup hbelow hbranches).mpr fun id => ?_
  rw [mem_descendants_iff_climb hf h, exists_climb_iff, List.mem_flatMap]
  refine exists_congr fun c => and_congr_right fun hc => ?_
  have hshallow : f.IsShallow c := h.below (.one (mem_children.mp hc))
  exact (hshallow.mem_branch hf).symm

theorem total_eq_children (own : Int → Int) :
    f.total own root = own root + ((f.children root).map (f.total own)).sum := by
  have hchildren : ((f.descendants root).map own).sum =
      ((f.children root).map (f.total own)).sum := by
    rw [((descendants_perm hf h).map own).sum_eq, List.map_flatMap, List.flatMap_def,
      List.sum_flatten, List.map_map]
    exact congrArg List.sum (List.map_congr_left fun c _ => (total_eq f own c).symm)
  rw [total_eq, List.map_cons, List.sum_cons, hchildren]

end Children

section Recursion

variable {categories : List Category} {maxDepth : Nat} (h : (categories.map Category.id).Nodup)
  (hdepth : ∀ id k, ancestor? categories k id = some root → k ≤ maxDepth)
include h hdepth

theorem total_of_ancestor (own : Int → Int) (hup : ancestor? categories k id = some root) :
    (ofCategories categories maxDepth).total own id = own id +
      (((ofCategories categories maxDepth).children id).map
        ((ofCategories categories maxDepth).total own)).sum := by
  have hf : (ofCategories categories maxDepth).Distinct := distinct_ofCategories.mpr h
  have hroot : (ofCategories categories maxDepth).IsShallow root :=
    fun k id hclimb => hdepth id k ((climb_iff_ancestor h).mp hclimb).2
  cases k with
  | zero =>
    obtain rfl : id = root := Option.some.inj hup
    exact total_eq_children hf hroot own
  | succ k =>
    have hclimb : (ofCategories categories maxDepth).Climb root (k + 1) id :=
      (climb_iff_ancestor h).mpr ⟨Nat.le_add_left 1 k, hup⟩
    exact total_eq_children hf (hroot.below hclimb) own

/-- Numbers that count up from the same own ones are the same: by induction from the greatest depth
upwards, where there are no more children. -/
theorem counts_up_unique {own s t : Int → Int}
    (hs : ∀ id, (∃ k, ancestor? categories k id = some root) →
      s id = own id + (((ofCategories categories maxDepth).children id).map s).sum)
    (ht : ∀ id, (∃ k, ancestor? categories k id = some root) →
      t id = own id + (((ofCategories categories maxDepth).children id).map t).sum)
    (n : Nat) (hup : ancestor? categories k id = some root) (hn : maxDepth < n + k) :
    s id = t id := by
  induction n generalizing id k with
  | zero =>
    have hbound := hdepth id k hup
    omega
  | succ n ih =>
    have hchildren : ((ofCategories categories maxDepth).children id).map s =
        ((ofCategories categories maxDepth).children id).map t := by
      refine List.map_congr_left fun child hchild => ?_
      have hparent := (link_iff_parent h).mp (mem_children.mp hchild)
      exact ih ((ancestor?_succ hparent k).trans hup) (by omega)
    rw [hs id ⟨k, hup⟩, ht id ⟨k, hup⟩, hchildren]

end Recursion

/-- Where no way up to a category is longer than the greatest depth, so that none comes back to it,
the totals of the category and of every one below it are what counting from the bottom up gives: a
category's own number and the totals of its children. No other numbers do that. -/
theorem total_counts_up (categories : List Category) (maxDepth : Nat) (own : Int → Int) (root : Int)
    (h : (categories.map Category.id).Nodup)
    (hdepth : ∀ id k, ancestor? categories k id = some root → k ≤ maxDepth) :
    let f := ofCategories categories maxDepth
    (∀ id, (∃ k, ancestor? categories k id = some root) →
      f.total own id = own id + ((f.children id).map (f.total own)).sum) ∧
    ∀ number : Int → Int,
      (∀ id, (∃ k, ancestor? categories k id = some root) →
        number id = own id + ((f.children id).map number).sum) →
      ∀ id, (∃ k, ancestor? categories k id = some root) → number id = f.total own id := by
  intro f
  have htotal (id : Int) (hid : ∃ k, ancestor? categories k id = some root) :
      f.total own id = own id + ((f.children id).map (f.total own)).sum := by
    obtain ⟨k, hup⟩ := hid
    exact total_of_ancestor h hdepth own hup
  refine ⟨htotal, fun number hnumber => ?_⟩
  rintro id ⟨k, hup⟩
  exact counts_up_unique h hdepth hnumber htotal (maxDepth + 1) hup (by omega)

/-- Category 1 with 2 and 3 below it and 4 below 2, beside a category that stands above itself. -/
def nestedCategories : List Category :=
  [⟨1, 1, none, "a"⟩, ⟨2, 1, some 1, "b"⟩, ⟨3, 1, some 1, "c"⟩, ⟨4, 1, some 2, "d"⟩,
    ⟨5, 1, some 5, "e"⟩]

theorem nestedCategories_depth (id : Int) (k : Nat)
    (hup : ancestor? nestedCategories k id = some 1) : k ≤ 2 := by
  have hparent {id parent : Int} (h : parent? nestedCategories id = some parent) :
      (id, parent) ∈ [((2 : Int), (1 : Int)), (3, 1), (4, 2), (5, 5)] := by
    obtain ⟨c, hc, rfl, hparent⟩ := listed_of_parent? h
    simp only [nestedCategories, List.mem_cons, List.not_mem_nil, or_false] at hc
    rcases hc with rfl | rfl | rfl | rfl | rfl <;> cases hparent <;> decide
  have hself (k : Nat) : ancestor? nestedCategories k 5 = some 5 := by
    induction k with
    | zero => rfl
    | succ k ih => exact (ancestor?_succ (by decide) k).trans ih
  have hnone (k : Nat) : ancestor? nestedCategories (k + 1) 1 = none := rfl
  have htwo : parent? nestedCategories 2 = some 1 := by decide
  by_contra hlong
  obtain ⟨rest, rfl⟩ : ∃ rest, k = rest + 3 := ⟨k - 3, by omega⟩
  obtain ⟨parent, habove, hrest⟩ := Option.bind_eq_some_iff.mp hup
  have hpair := hparent habove
  simp only [List.mem_cons, Prod.mk.injEq, List.not_mem_nil, or_false] at hpair
  rcases hpair with ⟨-, rfl⟩ | ⟨-, rfl⟩ | ⟨-, rfl⟩ | ⟨-, rfl⟩
  · rw [hnone] at hrest
    cases hrest
  · rw [hnone] at hrest
    cases hrest
  · rw [ancestor?_succ htwo, hnone] at hrest
    cases hrest
  · rw [hself] at hrest
    cases hrest

/-- Numbers that tell the categories apart. -/
theorem total_counts_up_nested :
    let f := ofCategories nestedCategories 2
    let own (id : Int) := id * id
    (nestedCategories.map Category.id).Nodup ∧
      (∀ id k, ancestor? nestedCategories k id = some 1 → k ≤ 2) ∧
      f.total own 2 = 4 + f.total own 4 ∧
      f.total own 1 = 1 + (f.total own 2 + f.total own 3) := by
  intro f own
  have hids : (nestedCategories.map Category.id).Nodup := by decide
  have htotal := (total_counts_up nestedCategories 2 own 1 hids nestedCategories_depth).1
  have htwo : f.children 2 = [4] := List.mergeSort_singleton 4
  have hone : f.children 1 = [2, 3] := List.mergeSort_of_pairwise (by decide)
  refine ⟨hids, nestedCategories_depth, ?_, ?_⟩
  · have hlevel := htotal 2 ⟨1, by decide⟩
    rw [htwo] at hlevel
    simpa [own] using hlevel
  · have hlevel := htotal 1 ⟨0, rfl⟩
    rw [hone] at hlevel
    simpa [own] using hlevel

end CategoryForest

end Newsfeed
