import Newsfeed.Proofs.Predicate.Conjunction
import Newsfeed.Store.Join

/-!
What it takes for a row to pass a question about one of its columns.
-/

namespace Newsfeed

namespace Cell

@[simp] theorem ofInt_null {n? : Option Int} : ofInt? n? = .null ↔ n? = none := by
  cases n? <;> simp [ofInt?]

@[simp] theorem ofText_null {a? : Option String} : ofText? a? = .null ↔ a? = none := by
  cases a? <;> simp [ofText?]

/-- Nothing equals null, and a number is one of a list when it is in it. -/
theorem isOneOf_ofInt (n? : Option Int) (values : List Int) :
    ((ofInt? n?).isOneOf values).holds ↔ ∃ n ∈ values, n? = some n := by
  induction values with
  | nil => simp [isOneOf, Truth.holds]
  | cons v values ih =>
    have hcons : (ofInt? n?).isOneOf (v :: values) =
        (Comparison.eq.truth (ofInt? n?) (.int v)).or ((ofInt? n?).isOneOf values) := rfl
    rw [hcons, Truth.holds_or, ih]
    cases n? with
    | none => simp [ofInt?, Comparison.truth, order?, Truth.holds]
    | some n => simp [ofInt?, Comparison.truth, order?, Truth.holds, Comparison.accepts]

end Cell

namespace Predicate

variable {row : Facts} {column : Column}

theorem admits_always (row : Facts) : admits .always row := by
  rw [admits, truth]
  rfl

theorem admits_never (row : Facts) : admits .never row = false := by
  rw [admits, truth]
  rfl

theorem admits_isNull : admits (.isNull column) row ↔ row.cell column = .null := by
  simp [admits, truth, Truth.holds]

theorem admits_notNull : admits (.notNull column) row ↔ row.cell column ≠ .null := by
  simp [admits, truth, Truth.holds]

theorem admits_switch {b : Bool} (h : row.cell column = .int (if b then 1 else 0)) (v : Bool) :
    admits (.compare column .eq (.bool v)) row ↔ b = v := by
  rw [admits, truth, h]
  cases b <;> cases v <;> decide

/-- A column that may hold a number. Where it holds none, it differs from every number. -/
theorem admits_number {m? : Option Int} (h : row.cell column = Cell.ofInt? m?) (op : Comparison)
    (n : Int) :
    admits (.compare column op (.int n)) row ↔
      (∃ m, m? = some m ∧ op.accepts (Ord.compare m n)) ∨ (m? = none ∧ op = .isNot) := by
  rw [admits, truth, h]
  cases m? with
  | some m => simp [Value.cell, Comparison.truth, Cell.ofInt?, Cell.order?, Truth.holds]
  | none =>
    cases op <;> simp [Value.cell, Comparison.truth, Cell.ofInt?, Cell.order?, Truth.holds]

/-- A column that may hold a text, beside what is written as one. -/
theorem admits_text {a? : Option String} (h : row.cell column = Cell.ofText? a?)
    (op : Comparison) {value : Value} {b : String} (hvalue : value.cell = .text b) :
    admits (.compare column op value) row ↔
      (∃ a, a? = some a ∧ op.accepts (Ord.compare a b)) ∨ (a? = none ∧ op = .isNot) := by
  rw [admits, truth, h, hvalue]
  cases a? with
  | some a => simp [Comparison.truth, Cell.ofText?, Cell.order?, Truth.holds]
  | none => cases op <;> simp [Comparison.truth, Cell.ofText?, Cell.order?, Truth.holds]

theorem admits_inList {n? : Option Int} (h : row.cell column = Cell.ofInt? n?)
    (values : List Int) :
    admits (.inList column values) row ↔ ∃ n ∈ values, n? = some n := by
  rw [admits, truth, h, Cell.isOneOf_ofInt]

end Predicate

end Newsfeed
