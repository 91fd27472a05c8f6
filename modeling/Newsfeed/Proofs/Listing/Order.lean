import Mathlib.Data.List.Perm.Basic
import Newsfeed.Store.Join

/-!
The order of a listing is total and, as long as no article is in it twice, strict. So the sorted
list does not depend on how the rows stood before.
-/

namespace Newsfeed

open Std

namespace Cell

/-- Cells of different kinds are ordered by kind. -/
def rank : Cell → Nat
  | .null => 0
  | .int _ => 1
  | .text _ => 2

def number : Cell → Int
  | .int n => n
  | _ => 0

def string : Cell → String
  | .text s => s
  | _ => ""

theorem sortOrder_eq :
    sortOrder = compareLex (compareOn rank) (compareLex (compareOn number) (compareOn string)) := by
  funext a b
  cases a <;> cases b <;>
    simp [sortOrder, compareLex, compareOn, rank, number, string, Nat.compare_eq_ite_lt]

instance : TransCmp sortOrder := by
  rw [sortOrder_eq]
  infer_instance

end Cell

namespace SortOrder

theorem apply_eq (d : Direction) (c : Ordering) : d.apply c = .eq ↔ c = .eq := by
  cases d <;> cases c <;> simp [Direction.apply]

/-- Rows by one key. -/
def compareKey (k : SortKey) (a b : Joined) : Ordering :=
  k.direction.apply ((a.sortCell k.column).sortOrder (b.sortCell k.column))

/-- What is compared by something about it. -/
theorem transCmp_on {α β : Type} (f : α → β) (cmp : β → β → Ordering) [TransCmp cmp] :
    TransCmp fun a b => cmp (f a) (f b) where
  eq_swap := OrientedCmp.eq_swap
  isLE_trans := TransCmp.isLE_trans

instance (k : SortKey) : TransCmp (compareKey k) := by
  have hcolumn := transCmp_on (fun r : Joined => r.sortCell k.column) Cell.sortOrder
  cases hd : k.direction with
  | asc =>
    have hkey : compareKey k = fun a b =>
        (a.sortCell k.column).sortOrder (b.sortCell k.column) := by
      funext a b
      rw [compareKey, hd, Direction.apply]
    rw [hkey]
    exact hcolumn
  | desc =>
    have hkey : compareKey k = fun a b =>
        (b.sortCell k.column).sortOrder (a.sortCell k.column) := by
      funext a b
      rw [compareKey, hd, Direction.apply, ← OrientedCmp.eq_swap]
    rw [hkey]
    exact hcolumn.opposite

theorem compareKeys_cons (k : SortKey) (ks : List SortKey) :
    (fun a b => compareKeys a b (k :: ks)) =
      compareLex (compareKey k) fun a b => compareKeys a b ks := rfl

instance (ks : List SortKey) : TransCmp fun a b => compareKeys a b ks := by
  induction ks with
  | nil => exact { eq_swap := rfl, isLE_trans := fun _ _ => rfl }
  | cons k ks ih =>
    rw [compareKeys_cons]
    infer_instance

/-- Of two articles the greater one is first. -/
def compareArticles (a b : Joined) : Ordering := compare b.article.id a.article.id

instance : TransCmp compareArticles :=
  (transCmp_on (fun r : Joined => r.article.id) compare).opposite

variable (o : SortOrder)

instance : TransCmp o.compareRows :=
  inferInstanceAs (TransCmp (compareLex (fun a b => compareKeys a b o.keys) compareArticles))

theorem compareRows_eq {a b : Joined} (h : o.compareRows a b = .eq) :
    a.article.id = b.article.id := by
  unfold compareRows at h
  rw [Ordering.then_eq_eq] at h
  exact (LawfulEqOrd.eq_of_compare h.2).symm

theorem sort_perm (rows : List Joined) : (o.sort rows).Perm rows := List.mergeSort_perm _ _

theorem sort_pairwise (rows : List Joined) :
    (o.sort rows).Pairwise fun a b => o.compareRows a b ≠ .gt := by
  have hle (a b : Joined) : (o.compareRows a b != .gt) = (o.compareRows a b).isLE := by
    cases o.compareRows a b <;> rfl
  have htrans (a b c : Joined) (hab : o.compareRows a b != .gt) (hbc : o.compareRows b c != .gt) :
      o.compareRows a c != .gt := by
    rw [hle] at *
    exact TransCmp.isLE_trans hab hbc
  have htotal (a b : Joined) : (o.compareRows a b != .gt || o.compareRows b a != .gt) := by
    rw [show o.compareRows b a = (o.compareRows a b).swap from OrientedCmp.eq_swap]
    cases o.compareRows a b <;> rfl
  exact (List.pairwise_mergeSort htrans htotal rows).imp fun h => by simpa using h

/-- A list of rows without an article twice. -/
def Distinct (rows : List Joined) : Prop := (rows.map fun r => r.article.id).Nodup

theorem sort_strict {rows : List Joined} (h : Distinct rows) :
    (o.sort rows).Pairwise fun a b => o.compareRows a b = .lt := by
  have hids : (o.sort rows).Pairwise fun a b => a.article.id ≠ b.article.id :=
    List.pairwise_map.mp (((o.sort_perm rows).map _).nodup_iff.mpr h)
  refine ((o.sort_pairwise rows).and hids).imp fun ⟨hle, hne⟩ => ?_
  cases hab : o.compareRows _ _ with
  | lt => rfl
  | eq => exact absurd (o.compareRows_eq hab) hne
  | gt => exact absurd hab hle

/-- There is one way to write rows strictly in order. -/
theorem eq_of_strict {rows rows' : List Joined} (hperm : rows.Perm rows')
    (h : rows.Pairwise fun a b => o.compareRows a b = .lt)
    (h' : rows'.Pairwise fun a b => o.compareRows a b = .lt) : rows = rows' := by
  refine hperm.eq_of_pairwise (fun a b _ _ hab hba => ?_) h h'
  have := OrientedCmp.gt_of_lt hab
  rw [hba] at this
  cases this

theorem sort_first_key {k : SortKey} {keys : List SortKey} (hkeys : o.keys = k :: keys)
    (rows : List Joined) : (o.sort rows).Pairwise fun a b => compareKey k a b ≠ .gt := by
  refine (o.sort_pairwise rows).imp fun hab hgt => hab ?_
  rw [compareRows, hkeys, compareKeys, ← compareKey, hgt]
  rfl

theorem sort_eq_of_strict {rows rows' : List Joined} (h : Distinct rows) (hperm : rows.Perm rows')
    (h' : rows'.Pairwise fun a b => o.compareRows a b = .lt) : o.sort rows = rows' :=
  o.eq_of_strict ((o.sort_perm rows).trans hperm) (o.sort_strict h) h'

/-- Rows are sorted into one list however they stood before. -/
theorem sort_eq_of_perm {rows rows' : List Joined} (h : Distinct rows) (hperm : rows.Perm rows') :
    o.sort rows = o.sort rows' := by
  have h' : Distinct rows' := (hperm.map _).nodup_iff.mp h
  exact o.sort_eq_of_strict h (hperm.trans (o.sort_perm rows').symm) (o.sort_strict h')

/-- Rows that pass a test are sorted as they stand among the others. -/
theorem sort_filter {rows : List Joined} (h : Distinct rows) (test : Joined → Bool) :
    o.sort (rows.filter test) = (o.sort rows).filter test := by
  have hkept : Distinct (rows.filter test) := h.sublist (List.filter_sublist.map _)
  have hsame := (o.sort_perm (rows.filter test)).trans ((o.sort_perm rows).filter test).symm
  exact o.eq_of_strict hsame (o.sort_strict hkept) ((o.sort_strict h).filter test)

/-- Of the rows that pass a test, none stands in front of the first. -/
theorem first_le {rows : List Joined} (h : rows.Pairwise fun a b => o.compareRows a b = .lt)
    {test : Joined → Bool} {first r : Joined} (hfirst : rows.find? test = some first) (hr : r ∈ rows)
    (htest : test r) : first = r ∨ o.compareRows first r = .lt := by
  obtain ⟨-, front, behind, rfl, hfront⟩ := List.find?_eq_some_iff_append.mp hfirst
  rcases List.mem_append.mp hr with hr | hr
  · have hnot := hfront r hr
    simp [htest] at hnot
  · rcases List.mem_cons.mp hr with hr | hr
    · exact .inl hr.symm
    · have hbehind := (List.pairwise_append.mp h).2.1
      exact .inr ((List.pairwise_cons.mp hbehind).1 r hr)

/-- The first of some rows is the first of fewer, as long as it is among them. -/
theorem first_of_fewer {rows rows' : List Joined}
    (h : rows.Pairwise fun a b => o.compareRows a b = .lt)
    (h' : rows'.Pairwise fun a b => o.compareRows a b = .lt) {test test' : Joined → Bool}
    (hfewer : ∀ r ∈ rows', test' r → r ∈ rows ∧ test r) {first : Joined}
    (hfirst : rows.find? test = some first) (hmem : first ∈ rows') (htest : test' first) :
    rows'.find? test' = some first := by
  obtain ⟨r, hr⟩ := Option.isSome_iff_exists.mp (List.find?_isSome.mpr ⟨first, hmem, htest⟩)
  obtain ⟨hrows, hrtest⟩ := hfewer r (List.mem_of_find?_eq_some hr) (List.find?_some hr)
  rcases o.first_le h hfirst hrows hrtest with rfl | hfront
  · exact hr
  · rcases o.first_le h' hr hmem htest with rfl | hback
    · exact hr
    · have := OrientedCmp.gt_of_lt hback
      rw [hfront] at this
      cases this

end SortOrder

end Newsfeed
