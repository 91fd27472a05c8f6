import Newsfeed.Predicate.Meaning
import Newsfeed.Proofs.Predicate.Atoms

/-!
A conjunction in its simplest form means the same as its parts together, and a disjunction the same
as its parts one beside the other.
-/

namespace Newsfeed

namespace Truth

theorem true_and (a : Truth) : Truth.and (some true) a = a := by
  rcases a with _ | _ | _ <;> rfl

theorem and_true (a : Truth) : a.and (some true) = a := by
  rcases a with _ | _ | _ <;> rfl

theorem and_assoc (a b c : Truth) : (a.and b).and c = a.and (b.and c) := by
  rcases a with _ | _ | _ <;> rcases b with _ | _ | _ <;> rcases c with _ | _ | _ <;> rfl

theorem and_false (a : Truth) : a.and (some false) = some false := by
  rcases a with _ | _ | _ <;> rfl

theorem false_and (a : Truth) : Truth.and (some false) a = some false := rfl

theorem and_some (a b : Bool) : Truth.and (some a) (some b) = some (a && b) := by
  cases a <;> cases b <;> rfl

theorem or_assoc (a b c : Truth) : (a.or b).or c = a.or (b.or c) := by
  rcases a with _ | _ | _ <;> rcases b with _ | _ | _ <;> rcases c with _ | _ | _ <;> rfl

theorem or_false (a : Truth) : a.or (some false) = a := by
  rcases a with _ | _ | _ <;> rfl

theorem false_or (a : Truth) : Truth.or (some false) a = a := by
  rcases a with _ | _ | _ <;> rfl

theorem or_true (a : Truth) : a.or (some true) = some true := by
  rcases a with _ | _ | _ <;> rfl

theorem true_or (a : Truth) : Truth.or (some true) a = some true := rfl

theorem or_some (a b : Bool) : Truth.or (some a) (some b) = some (a || b) := by
  cases a <;> cases b <;> rfl

theorem holds_and (a b : Truth) : (a.and b).holds = (a.holds && b.holds) := by
  rcases a with _ | _ | _ <;> rcases b with _ | _ | _ <;> rfl

theorem holds_or (a b : Truth) : (a.or b).holds ↔ a.holds ∨ b.holds := by
  rcases a with _ | _ | _ <;> rcases b with _ | _ | _ <;> decide

end Truth

namespace Predicate

variable (row : Facts)

theorem truthOfAll_append (ps qs : List Predicate) :
    truthOfAll row (ps ++ qs) = (truthOfAll row ps).and (truthOfAll row qs) := by
  induction ps with
  | nil => rw [List.nil_append, truthOfAll, Truth.true_and]
  | cons p ps ih => rw [List.cons_append, truthOfAll, ih, truthOfAll, Truth.and_assoc]

/-- What is left of the parts of a conjunction means as much as all of them. -/
private theorem truth_conjuncts (ps : List Predicate) :
    truthOfAll row ps =
      match conjuncts? ps with
      | none => some false
      | some kept => truthOfAll row kept := by
  fun_induction conjuncts? ps with
  | case1 => rfl
  | case2 ps ih => rw [truthOfAll, ih, truth, Truth.true_and]
  | case3 ps => rw [truthOfAll, truth, Truth.false_and]
  | case4 inner ps ih =>
    rw [truthOfAll, ih, truth]
    cases conjuncts? ps with
    | none => exact Truth.and_false _
    | some kept => exact (truthOfAll_append row inner kept).symm
  | case5 p ps _ _ _ ih =>
    rw [truthOfAll, ih]
    cases conjuncts? ps with
    | none => exact Truth.and_false _
    | some kept => rfl

theorem truth_all (ps : List Predicate) : (all ps).truth row = truthOfAll row ps := by
  rw [truth_conjuncts, all]
  match conjuncts? ps with
  | none => simp only [truth]
  | some [] => simp only [truth, truthOfAll]
  | some [p] => simp only [truthOfAll, Truth.and_true]
  | some (p :: q :: kept) => simp only [truth]

/-- What is left of the parts of a disjunction means as much as all of them. -/
private theorem truth_disjuncts (ps : List Predicate) :
    truthOfAny row ps =
      match disjuncts? ps with
      | none => some true
      | some kept => truthOfAny row kept := by
  fun_induction disjuncts? ps with
  | case1 => rfl
  | case2 ps ih => rw [truthOfAny, ih, truth, Truth.false_or]
  | case3 ps => rw [truthOfAny, truth, Truth.true_or]
  | case4 p ps _ _ ih =>
    rw [truthOfAny, ih]
    cases disjuncts? ps with
    | none => exact Truth.or_true _
    | some kept => rfl

theorem truth_any (ps : List Predicate) : (any ps).truth row = truthOfAny row ps := by
  rw [truth_disjuncts, any]
  match disjuncts? ps with
  | none => simp only [truth]
  | some [] => simp only [truth, truthOfAny]
  | some [p] => simp only [truthOfAny, Truth.or_false]
  | some (p :: q :: kept) => simp only [truth]

/-- A row passes a conjunction when it passes every part. -/
theorem admits_all (ps : List Predicate) :
    (all ps).admits row = ps.all fun p => p.admits row := by
  rw [admits, truth_all]
  induction ps with
  | nil => rw [truthOfAll]; rfl
  | cons p ps ih => rw [truthOfAll, Truth.holds_and, ih, List.all_cons, admits]

theorem eq_never {p : Predicate} (h : p.isNever) : p = never := by
  cases p <;> simp_all [isNever]

theorem conjuncts_never {ps : List Predicate} (h : never ∈ ps) :
    conjuncts? ps = none := by
  fun_induction conjuncts? ps with
  | case1 => cases h
  | case2 ps ih => exact ih (by simpa using h)
  | case3 ps => rfl
  | case4 inner ps ih => rw [ih (by simpa using h), Option.map_none]
  | case5 p ps _ hnever _ ih =>
    have htail : never ∈ ps := by
      rcases List.mem_cons.mp h with rfl | h
      · exact absurd rfl hnever
      · exact h
    rw [ih htail, Option.map_none]

theorem mem_conjuncts_fullText {ps kept : List Predicate}
    (h : conjuncts? ps = some kept) {l q : String} (hmem : fullText l q ∈ ps) :
    fullText l q ∈ kept := by
  fun_induction conjuncts? ps generalizing kept with
  | case1 => cases hmem
  | case2 ps ih => exact ih h (by simpa using hmem)
  | case3 ps => cases h
  | case4 inner ps ih =>
    obtain ⟨others, hothers, rfl⟩ := Option.map_eq_some_iff.mp h
    exact List.mem_append_right _ (ih hothers (by simpa using hmem))
  | case5 p ps _ _ _ ih =>
    obtain ⟨others, hothers, rfl⟩ := Option.map_eq_some_iff.mp h
    rcases List.mem_cons.mp hmem with rfl | hmem
    · exact List.mem_cons_self
    · exact List.mem_cons_of_mem _ (ih hothers hmem)

theorem conjuncts_eq_none {ps : List Predicate} (h : conjuncts? ps = none) :
    never ∈ ps := by
  fun_induction conjuncts? ps with
  | case1 => cases h
  | case2 ps ih => exact List.mem_cons_of_mem _ (ih h)
  | case3 ps => exact List.mem_cons_self
  | case4 inner ps ih => exact List.mem_cons_of_mem _ (ih (Option.map_eq_none_iff.mp h))
  | case5 p ps _ _ _ ih => exact List.mem_cons_of_mem _ (ih (Option.map_eq_none_iff.mp h))

/-- A conjunction that is not given up keeps its full-text query. -/
theorem mem_terms_all {ps : List Predicate} (hnever : never ∉ ps) {l q : String}
    (h : fullText l q ∈ ps) : (l, q) ∈ (all ps).fullTextTerms := by
  rw [mem_fullTextTerms]
  unfold all
  split
  · rename_i hnone
    exact absurd (conjuncts_eq_none hnone) hnever
  · rename_i hkept
    cases mem_conjuncts_fullText hkept h
  · rename_i p hkept
    rw [← List.mem_singleton.mp (mem_conjuncts_fullText hkept h)]
    exact List.mem_singleton_self _
  · rename_i kept _ _ hkept
    rw [atoms, mem_atomsOfAll]
    exact ⟨_, mem_conjuncts_fullText hkept h, List.mem_singleton_self _⟩

end Predicate

end Newsfeed
