import Newsfeed.Listing.Filter
import Newsfeed.Proofs.Predicate.Columns

/-!
What the parts of listings' filters ask of a row.
-/

namespace Newsfeed

open Predicate Time

namespace Store

variable {s : Store} {r : Joined}

theorem admits_feed (id : Int) :
    admits (.compare .feedId .eq (.int id)) (s.facts r) ↔ r.copy.feed = some id := by
  have hcell : (s.facts r).cell .feedId = Cell.ofInt? r.copy.feed := rfl
  rw [admits_number hcell]
  simp [Comparison.accepts]

theorem admits_category (id : Int) :
    admits (.compare .categoryId .eq (.int id)) (s.facts r) ↔
      r.feed.bind Feed.category = some id := by
  have hcell : (s.facts r).cell .categoryId = Cell.ofInt? (r.feed.bind Feed.category) := rfl
  rw [admits_number hcell]
  simp [Comparison.accepts]

theorem admits_score :
    admits (.compare .score .ge (.int 0)) (s.facts r) ↔ 0 ≤ r.article.score := by
  have hcell : (s.facts r).cell .score = Cell.ofInt? (some r.article.score) := rfl
  rw [admits_number hcell]
  simp [Comparison.accepts, Int.compare_eq_lt]

theorem admits_after (id : Int) :
    admits (.compare .entryId .gt (.int id)) (s.facts r) ↔ id < r.article.id := by
  have hcell : (s.facts r).cell .entryId = Cell.ofInt? (some r.article.id) := rfl
  rw [admits_number hcell]
  simp [Comparison.accepts, Int.compare_eq_gt]

theorem admits_entered (op : Comparison) (t : Instant) :
    admits (.compare .dateEntered op (.time t)) (s.facts r) ↔
      op.accepts (Ord.compare r.article.dateEntered t.storedText) := by
  have hcell : (s.facts r).cell .dateEntered = Cell.ofText? (some r.article.dateEntered) := rfl
  rw [admits_text hcell op rfl]
  simp

theorem admits_read (t : Instant) :
    admits (.compare .lastRead .gt (.time t)) (s.facts r) ↔
      ∃ read, r.copy.lastRead = some read ∧ Ord.compare read t.storedText = .gt := by
  have hcell : (s.facts r).cell .lastRead = Cell.ofText? r.copy.lastRead := rfl
  rw [admits_text hcell .gt rfl]
  simp [Comparison.accepts]

theorem admits_unread : isUnread.admits (s.facts r) ↔ r.copy.unread :=
  admits_switch rfl true

theorem admits_label (label : Int) :
    admits (.label label) (s.facts r) ↔ ⟨label, r.article.id⟩ ∈ s.labelings := by
  simp [admits, truth, Truth.holds, facts]

theorem admits_note :
    Search.hasNote.admits (s.facts r) ↔ ∃ note, r.copy.note = some note ∧ note ≠ "" := by
  have hcell : (s.facts r).cell .note = Cell.ofText? r.copy.note := rfl
  rw [Search.hasNote, admits_all]
  simp only [List.all_cons, List.all_nil, Bool.and_true, Bool.and_eq_true]
  rw [admits_notNull, admits_text hcell .isNot rfl, hcell]
  cases r.copy.note <;> simp [Comparison.accepts]

end Store

end Newsfeed
