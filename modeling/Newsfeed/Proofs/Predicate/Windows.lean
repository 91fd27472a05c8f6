import Newsfeed.Predicate.Meaning
import Newsfeed.Proofs.Time.Windows

/-!
Windows of time in a filter. Their starts are compared with stored times as texts, and still it is
the instants that decide.
-/

namespace Newsfeed

open Newsfeed.Time

namespace Predicate

variable {now t : Instant} {column : Column} {row : Facts} {op : Comparison} {unit n : Int}

theorem admits_time {cut : Instant} (ht : t.HasPlainYear) (hcut : cut.date.year ≤ 9999)
    (hcell : row.cell column = .text t.storedText) :
    (compare column op (.time cut)).admits row = op.accepts (Ord.compare t.place cut.place) := by
  rw [admits, truth, hcell, Value.cell, Comparison.truth, Cell.order?,
    Instant.storedText_compare ht hcut]
  simp [Truth.holds]

/-- A window without a start admits everything, if it admits what is after its start. -/
theorem admits_before (hop : op.accepts .gt) (hnow : now.HasPlainYear) (ht : t.HasPlainYear)
    (hcell : row.cell column = .text t.storedText) (hspan : 0 ≤ unit * n) :
    (compare column op (.time (before now unit n))).admits row ↔
      ∀ cut, now.shift? (-(unit * n)) = some cut →
        op.accepts (Ord.compare t.place cut.place) := by
  rw [admits_time ht (before_year hnow.2 hspan) hcell, before_eq hnow.2 hspan]
  cases hcut : now.shift? (-(unit * n)) with
  | none =>
    have hafter := Int.compare_eq_gt.mpr (Instant.earliest_lt_of_plain ht)
    simp [hafter, hop]
  | some cut => simp

/-- A longer window admits what a shorter one does. -/
theorem admits_longer (hop : op = .gt ∨ op = .ge) (hnow : now.HasPlainYear) (ht : t.HasPlainYear)
    (hcell : row.cell column = .text t.storedText) {m : Int} (hspan : 0 ≤ unit * n)
    (hlonger : unit * n ≤ unit * m)
    (h : (compare column op (.time (before now unit n))).admits row) :
    (compare column op (.time (before now unit m))).admits row := by
  have hop' : op.accepts .gt := by
    rcases hop with rfl | rfl <;> rfl
  rw [admits_before hop' hnow ht hcell hspan] at h
  rw [admits_before hop' hnow ht hcell (Int.le_trans hspan hlonger)]
  intro cut hcut
  cases hcut' : now.shift? (-(unit * n)) with
  | none =>
    rw [Instant.shift_none_mono hnow.2 (by omega) (by omega) hcut'] at hcut
    cases hcut
  | some cut' =>
    have hadmits := h cut' hcut'
    have hback := Instant.shift_mono (by omega) (by omega) hcut hcut'
    rcases hop with rfl | rfl
    · simp only [Comparison.accepts, beq_iff_eq, Int.compare_eq_gt] at hadmits ⊢
      omega
    · simp only [Comparison.accepts, bne_iff_ne, ne_eq, Int.compare_eq_lt] at hadmits ⊢
      omega

/-- What is after the start of a window, by hours, or not before it, by minutes, is told by the
whole seconds of two instants, though texts are compared. Before the earliest instant no window
starts, and one that would admits everything. A longer window drops nothing. On a clock whole
seconds go by what is left of the instants without their fractions. -/
theorem windows_admit_by_instants (hnow : now.HasPlainYear) (ht : t.HasPlainYear)
    (hcell : row.cell column = .text t.storedText) (hn : 0 ≤ n) :
    ((compare column .gt (.time (hoursBefore now n))).admits row ↔
      ∀ cut, now.shift? (-(3600 * n)) = some cut → cut.place < t.place) ∧
    ((compare column .ge (.time (minutesBefore now n))).admits row ↔
      ∀ cut, now.shift? (-(60 * n)) = some cut → cut.place ≤ t.place) ∧
    (∀ m, n ≤ m →
      ((compare column .gt (.time (hoursBefore now n))).admits row →
        (compare column .gt (.time (hoursBefore now m))).admits row) ∧
      ((compare column .ge (.time (minutesBefore now n))).admits row →
        (compare column .ge (.time (minutesBefore now m))).admits row)) ∧
    (∀ span, 0 ≤ span →
      (now.shift? (-span) = none ↔ now.shiftStart (-span) - span < Instant.earliest.seconds)) ∧
    (now.OnClock → t.OnClock → ∀ span cut, now.shift? (-span) = some cut →
      (cut.place < t.place ↔ cut.truncate.lt t.truncate) ∧
      (cut.place ≤ t.place ↔ t.truncate.lt cut.truncate = false)) := by
  refine ⟨?_, ?_, ?_, ?_, ?_⟩
  · rw [hoursBefore, admits_before rfl hnow ht hcell (by omega)]
    simp only [Comparison.accepts, beq_iff_eq, Int.compare_eq_gt]
  · rw [minutesBefore, admits_before rfl hnow ht hcell (by omega)]
    simp only [Comparison.accepts, bne_iff_ne, ne_eq, Int.compare_eq_lt, Int.not_lt]
  · intro m hm
    exact ⟨admits_longer (.inl rfl) hnow ht hcell (by omega) (by omega),
      admits_longer (.inr rfl) hnow ht hcell (by omega) (by omega)⟩
  · intro span hspan
    exact Instant.shift_back hnow.2 (by omega)
  · intro hclock hclock' span cut hcut
    have hcutClock := Instant.shift_onClock hclock hcut
    refine ⟨Instant.place_lt_iff_truncate hcutClock hclock', ?_⟩
    rw [← Bool.not_eq_true, ← Instant.place_lt_iff_truncate hclock' hcutClock, Int.not_lt]

/-- A row whose times are all the same. -/
def rowOf (t : Instant) : Facts :=
  ⟨fun _ => .text t.storedText, fun _ => false, fun _ => false, fun _ _ => false, []⟩

def noon : Instant := ⟨1715342400, 0⟩

def eleven : Instant := ⟨1715338800, 0⟩

/-- What came an hour ago is at the start of a window of an hour. The longest one has no start. -/
theorem hour_ago_in_windows :
    noon.HasPlainYear ∧ eleven.HasPlainYear ∧
      (rowOf eleven).cell .dateEntered = .text eleven.storedText ∧
      ¬(compare .dateEntered .gt (.time (hoursBefore noon 1))).admits (rowOf eleven) ∧
      (compare .dateEntered .ge (.time (minutesBefore noon 60))).admits (rowOf eleven) ∧
      (compare .dateEntered .gt (.time (hoursBefore noon Text.maxInt64))).admits
        (rowOf eleven) := by
  have hnoon : noon.HasPlainYear := by decide +kernel
  have heleven : eleven.HasPlainYear := by decide +kernel
  obtain ⟨hhour, -, -⟩ := windows_admit_by_instants hnoon heleven
    (rfl : (rowOf eleven).cell .dateEntered = _) (by decide : (0 : Int) ≤ 1)
  obtain ⟨-, hminutes, -⟩ := windows_admit_by_instants hnoon heleven
    (rfl : (rowOf eleven).cell .dateEntered = _) (by decide : (0 : Int) ≤ 60)
  obtain ⟨hlongest, -⟩ := windows_admit_by_instants hnoon heleven
    (rfl : (rowOf eleven).cell .dateEntered = _) (by decide : 0 ≤ Text.maxInt64)
  have hstart : noon.shift? (-3600) = some eleven := by decide
  have hnone : noon.shift? (-(3600 * Text.maxInt64)) = none := by decide
  refine ⟨hnoon, heleven, rfl, ?_, ?_, ?_⟩
  · exact hhour.not.mpr fun h => Int.lt_irrefl _ (h eleven hstart)
  · refine hminutes.mpr fun cut hcut => ?_
    exact Int.le_of_eq (congrArg Instant.place (Option.some.inj (hcut.symm.trans hstart)))
  · refine hlongest.mpr fun cut hcut => ?_
    rw [hnone] at hcut
    cases hcut

end Predicate

end Newsfeed
