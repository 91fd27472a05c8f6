import Newsfeed.Counters.Count
import Newsfeed.Proofs.Listing.Matching
import Newsfeed.Proofs.Listing.Plain

/-!
The number of unread rows of a selection is that of its rows which are unread. Which of the archived
copies are counted does not depend on which of them are listed.
-/

namespace Newsfeed

open Predicate

/-- The number beside a reference covers archived copies. -/
def Reference.countsArchived : Reference → Bool
  | .category _ => false
  | .uncategorized => false
  | _ => true

namespace Selection

/-- The engine counts the rows of the selection itself. -/
def isCounted (s : Selection) (isCategory : Bool) : Bool :=
  match s.kind with
  | .plugin _ => false
  | .special feed => !isCategory && feed ≠ .recentlyRead
  | _ => true

end Selection

namespace Engine

variable {e : Engine} {ctx : Context}

theorem both_within {p q : Predicate} (hp : Each Plain p ∧ size p ≤ 16)
    (hq : Each Plain q ∧ size q ≤ 16) :
    (Scan.Condition.ofPredicate (Predicate.all [p, q])).Within := by
  refine within_of_plain (each_plain_all fun part hpart => ?_) ?_
  · simp only [List.mem_cons, List.not_mem_nil, or_false] at hpart
    rcases hpart with rfl | rfl
    · exact hp.1
    · exact hq.1
  · have hall := size_all_le [p, q]
    have hp := hp.2
    have hq := hq.2
    simp only [sizes] at hall
    omega

theorem isUnread_small : Each Plain isUnread ∧ size isUnread ≤ 16 :=
  ⟨isUnread_plain, by simp [isUnread, size]⟩

theorem countMatching_eq (h : Store.Sound e.store) (hclear : ctx.token.tripped = false)
    {archived : Bool} {filter : Predicate}
    (hw : (Scan.Condition.ofPredicate filter).Within) :
    e.countMatching ctx archived filter =
      .ok ((e.store.matching ctx.owner archived filter).length : Int) := by
  simp only [countMatching, reads, Store.under, GuardedStore.count, CancelToken.guarded, hclear,
    Store.count, Store.find_of_within e.store ctx.owner archived hw]
  exact congrArg (fun n : Nat => Except.ok (n : Int))
    (Store.count_copies h ctx.owner archived filter)

/-- The categories of the owner. -/
def ownForest (e : Engine) (ctx : Context) : CategoryForest :=
  .ofCategories (e.store.categoriesOfOwner ctx.owner) e.limits.categoryDepth

theorem forest_eq (hclear : ctx.token.tripped = false) :
    e.forest ctx = .ok (e.ownForest ctx) := by
  simp only [forest, reads, Store.under, GuardedStore.categories, CancelToken.guarded, hclear]
  rfl

/-- The unread rows of a selection, as they are counted. -/
def unreadRows (e : Engine) (ctx : Context) (kind : Reference) (own : Predicate) : List Joined :=
  e.store.matching ctx.owner kind.countsArchived (Predicate.all [own, isUnread])

theorem countSelection_counted (h : Store.Sound e.store) (hclear : ctx.token.tripped = false)
    {s : Selection} {isCategory : Bool} (hs : s.isCounted isCategory) :
    e.countSelection ctx s isCategory true =
      .ok ((e.unreadRows ctx s.kind (s.filter ctx e.limits none)).length : Int) := by
  have hw := both_within (selection_plain s ctx e.limits none) isUnread_small
  unfold Selection.isCounted at hs
  simp only [countSelection, hclear, Bool.false_eq_true, if_false, if_true, unreadRows,
    Reference.countsArchived]
  cases hkind : s.kind with
  | plugin id => simp [hkind] at hs
  | special feed =>
    simp only [hkind, Bool.and_eq_true, Bool.not_eq_true', decide_eq_true_eq] at hs
    simp only [hs.1, Bool.false_eq_true, false_or, if_neg hs.2]
    exact countMatching_eq h hclear hw
  | category id =>
    have hown : s.filter ctx e.limits none = .compare .categoryId .eq (.int id) := by
      rw [Selection.filter, hkind]
    rw [hown] at hw ⊢
    exact countMatching_eq h hclear hw
  | _ => exact countMatching_eq h hclear hw

theorem countSelection_special (hclear : ctx.token.tripped = false) {s : Selection}
    {isCategory : Bool} {feed : SpecialFeed} (hkind : s.kind = .special feed)
    (hs : s.isCounted isCategory = false) : e.countSelection ctx s isCategory true = .ok 0 := by
  simp only [Selection.isCounted, hkind, Bool.and_eq_false_iff, Bool.not_eq_false',
    decide_eq_false_iff_not, not_not] at hs
  simp only [countSelection, hclear, hkind, Bool.false_eq_true, if_false, if_pos hs]

end Engine

end Newsfeed
