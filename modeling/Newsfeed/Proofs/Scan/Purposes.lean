import Newsfeed.Scan.Walk

/-!
What rows are read for. It decides on the way to them only by how they are sorted and how many are
enough; and whether repeated rows are left out counts only where all of them are sorted.
-/

namespace Newsfeed.Scan

namespace Purpose

/-- Rows are sorted alike for both, and as many are enough. -/
structure Alike (p q : Purpose) : Prop where
  order : p.order? = q.order?
  sorted : p.sorted? = q.sorted?
  criteria : p.criteria = q.criteria
  limit : p.limit? = q.limit?
  quota : p.quota? = q.quota?
  distinct : p.limit? = none → p.isDistinct = q.isDistinct
  needs : p.needsArticles = q.needsArticles
  trial : p = .trial ↔ q = .trial

variable {p q : Purpose}

theorem Alike.sorting (h : p.Alike q) : p.sorting? = q.sorting? := by
  funext rows arranged
  have hdistinct := h.distinct
  unfold sorting?
  rw [h.criteria, h.limit] at *
  cases hlimit : q.limit? with
  | some n => rfl
  | none => rw [hdistinct hlimit]

end Purpose

namespace Goal

variable (g : Goal) (p q : Purpose)

end Goal

namespace Lookup

variable (g : Goal) (p q : Purpose)

variable {p q} (h : p.Alike q)

include h

end Lookup

section Alike

variable (g : Goal) {p q : Purpose} (h : p.Alike q)

include h

end Alike

end Newsfeed.Scan
