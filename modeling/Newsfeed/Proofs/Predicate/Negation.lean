import Newsfeed.Proofs.Predicate.Columns

/-!
What the opposite of a filter says. Where nothing is known of a row, nothing need be known of the
opposite either, and the row may pass neither.
-/

namespace Newsfeed

theorem Truth.not_not (t : Truth) : t.not.not = t := by
  cases t <;> simp [Truth.not]

theorem Truth.holds_not {t : Truth} (h : t ≠ none) : t.not.holds ↔ ¬t.holds := by
  cases t with
  | none => exact absurd rfl h
  | some b => simp [Truth.not, Truth.holds]

namespace Predicate

variable {p q : Predicate} {row : Facts} {column : Column}

theorem truth_no (p : Predicate) : (no p).truth row = (p.truth row).not := by
  rw [truth]

/-- Of a row that it is known of, the opposite says the opposite. -/
theorem truth_negate (h : p.truth row ≠ none) : p.negate.truth row = (p.truth row).not := by
  cases p with
  | no inner => rw [negate, truth_no, Truth.not_not]
  | compare column op value =>
    cases op with
    | eq =>
      -- Only here is the opposite more than a negation, and only of null does it say more.
      simp only [truth, Comparison.truth] at h
      cases horder : (row.cell column).order? value.cell with
      | none => simp [horder] at h
      | some o => simp [negate, truth, Comparison.truth, Comparison.accepts, horder, Truth.not, bne]
    | _ => exact truth_no _
  | isNull column => simp [negate, truth, Truth.not]
  | notNull column => simp [negate, truth, Truth.not]
  | always => simp [negate, truth, Truth.not]
  | never => simp [negate, truth, Truth.not]
  | _ => exact truth_no _

/-- A row passes neither of two filters where what they ask for is absent, and otherwise exactly one
of them. -/
structure Divides (p q : Predicate) (row : Facts) (absent : Prop) : Prop where
  neither : absent → ¬p.admits row ∧ ¬q.admits row
  one : ¬absent → (q.admits row ↔ ¬p.admits row)

theorem divides_known (h : p.truth row ≠ none) : Divides p p.negate row False where
  neither := False.elim
  one _ := by rw [admits, truth_negate h, Truth.holds_not h, admits]

/-- Nothing is known of a text that is not there, so it neither holds a needle nor lacks it. -/
theorem divides_contains {a? : Option String} (h : row.cell column = Cell.ofText? a?)
    (needle : String) :
    Divides (.contains column needle) (negate (.contains column needle)) row (a? = none) where
  neither hnone := by
    simp [negate, admits, truth, h, hnone, Cell.ofText?, Cell.holdsText, Truth.not, Truth.holds]
  one hsome := by
    obtain ⟨a, rfl⟩ := Option.ne_none_iff_exists'.mp hsome
    refine (divides_known ?_).one not_false
    simp [truth, h, Cell.ofText?, Cell.holdsText]

theorem Divides.congr {absent absent' : Prop} (h : Divides p q row absent)
    (hiff : absent' ↔ absent) : Divides p q row absent' where
  neither habsent := h.neither (hiff.mp habsent)
  one hthere := h.one fun habsent => hthere (hiff.mpr habsent)

theorem truth_isNot_ne_none (row : Facts) (column : Column) (value : Value) :
    (compare column .isNot value).truth row ≠ none := by
  simp only [truth, Comparison.truth]
  split <;> simp

end Predicate

end Newsfeed
