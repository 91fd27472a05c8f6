import Newsfeed.Listing.Filter
import Newsfeed.Proofs.Scan.Limits

/-!
Filters that a reader has no hand in. They look for no text, so the store can always read by them.
-/

namespace Newsfeed

open Predicate

theorem isUnread_plain : Each Plain isUnread := each_of_plain trivial

theorem isUncategorized_plain : Each Plain isUncategorized := by
  refine each_plain_all fun p hp => ?_
  simp only [List.mem_cons, List.not_mem_nil, or_false] at hp
  rcases hp with rfl | rfl <;> exact each_of_plain trivial

theorem inBranch_plain (forest : CategoryForest) (category : Int) :
    Each Plain (inBranch forest category) := each_of_plain trivial

theorem hasNote_plain : Each Plain Search.hasNote := by
  refine each_plain_all fun p hp => ?_
  simp only [List.mem_cons, List.not_mem_nil, or_false] at hp
  rcases hp with rfl | rfl <;> exact each_of_plain trivial

theorem special_plain (limits : Limits) (ctx : Context) (freshHours : Int) (feed : SpecialFeed) :
    Each Plain (feed.filter limits ctx freshHours) ∧
      size (feed.filter limits ctx freshHours) ≤ 16 := by
  cases feed with
  | fresh =>
    rw [SpecialFeed.filter]
    refine ⟨each_plain_all fun p hp => ?_, size_all_le _⟩
    simp only [List.mem_cons, List.not_mem_nil, or_false] at hp
    rcases hp with rfl | rfl | rfl <;> exact each_of_plain trivial
  | recentlyRead =>
    rw [SpecialFeed.filter]
    refine ⟨each_plain_all fun p hp => ?_, size_all_le _⟩
    simp only [List.mem_cons, List.not_mem_nil, or_false] at hp
    rcases hp with rfl | rfl | rfl <;> exact each_of_plain trivial
  | _ => exact ⟨each_of_plain trivial, by simp [SpecialFeed.filter, size]⟩

theorem selection_plain (s : Selection) (ctx : Context) (limits : Limits)
    (forest : Option CategoryForest) :
    Each Plain (s.filter ctx limits forest) ∧ size (s.filter ctx limits forest) ≤ 16 := by
  unfold Selection.filter
  cases s.kind with
  | category id =>
    cases forest with
    | none => exact ⟨each_of_plain trivial, by simp [size]⟩
    | some forest =>
      by_cases hc : s.includeChildren = true
      · simp only [hc, if_true]
        exact ⟨inBranch_plain forest id, by simp [inBranch, size]⟩
      · simp only [hc]
        exact ⟨each_of_plain trivial, by simp [size]⟩
  | uncategorized => exact ⟨isUncategorized_plain, Nat.le_trans (size_all_le _) (by decide)⟩
  | special feed => exact special_plain limits ctx _ feed
  | _ => exact ⟨each_of_plain trivial, by simp [size]⟩

theorem viewMode_plain (mode : ViewMode) (kind : Reference) :
    Each Plain (mode.filter kind) ∧ size (mode.filter kind) ≤ 12 := by
  cases mode with
  | unread =>
    rw [ViewMode.filter]
    by_cases hkind : kind = .special .recentlyRead
    · rw [if_pos hkind]
      exact ⟨each_of_plain trivial, by simp [size]⟩
    · rw [if_neg hkind]
      exact ⟨isUnread_plain, by simp [isUnread, size]⟩
  | hasNote =>
    rw [ViewMode.filter, Search.hasNote]
    exact ⟨hasNote_plain, size_all_le _⟩
  | _ => exact ⟨each_of_plain trivial, by simp [ViewMode.filter, size]⟩

end Newsfeed
