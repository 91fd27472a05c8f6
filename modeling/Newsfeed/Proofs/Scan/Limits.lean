import Mathlib.Algebra.Ring.Nat
import Newsfeed.Proofs.Predicate.Atoms
import Newsfeed.Proofs.Text.Lowered
import Newsfeed.Store.Read

/-!
A filter within the limits of the store: not too deep, and without a test that may be a fault. Such
a filter can always be read by.
-/

namespace Newsfeed

namespace Scan

namespace Condition

/-- The store can go over the condition, whatever the rows. -/
def Within (c : Condition) : Prop := c.isTooDeep = false ∧ c.mayFail = false

theorem one_le_height (c : Condition) : 1 ≤ c.height := by
  cases c with
  | test t => rcases t with ⟨_, _, _ | _⟩ | ⟨_ | _, _⟩ | _ <;> simp [height, Test.height]
  | _ => simp [height]

theorem innerHeight_le (c : Condition) : c.innerHeight ≤ 4 := by
  have hfold (ts : List Test) (n : Nat) (hn : n ≤ 4) :
      (ts.map Test.innerHeight).foldl max n ≤ 4 := by
    induction ts generalizing n with
    | nil => exact hn
    | cons t ts ih =>
      have ht : t.innerHeight ≤ 4 := by
        rcases t with _ | ⟨_ | _, _⟩ | _ <;> simp [Test.innerHeight]
      exact ih _ (by omega)
  exact hfold c.tests 0 (by omega)

theorem isTooDeep_of_height {c : Condition} (h : c.height ≤ 993) : c.isTooDeep = false := by
  have hinner := c.innerHeight_le
  simp only [isTooDeep, decide_eq_false_iff_not]
  omega

theorem mem_tests_and {a b : Condition} {t : Test} (h : t ∈ (and a b).tests) :
    t ∈ a.tests ∨ t ∈ b.tests := by
  unfold and at h
  split at h
  · simp [tests] at h
  · simpa [tests] using h

theorem mem_tests_all {cs : List Condition} {t : Test} (h : t ∈ (all cs).tests) :
    ∃ c ∈ cs, t ∈ c.tests := by
  have hfold (c : Condition) (cs : List Condition) (h : t ∈ (cs.foldl and c).tests) :
      t ∈ c.tests ∨ ∃ d ∈ cs, t ∈ d.tests := by
    induction cs generalizing c with
    | nil => exact .inl h
    | cons d ds ih =>
      rcases ih _ h with h | ⟨x, hx, ht⟩
      · rcases mem_tests_and h with h | h
        · exact .inl h
        · exact .inr ⟨d, List.mem_cons_self, h⟩
      · exact .inr ⟨x, List.mem_cons_of_mem _ hx, ht⟩
  cases cs with
  | nil => simp [all, tests] at h
  | cons c cs =>
    rcases hfold c cs h with h | ⟨d, hd, ht⟩
    · exact ⟨c, List.mem_cons_self, h⟩
    · exact ⟨d, List.mem_cons_of_mem _ hd, ht⟩

theorem mem_tests_any {cs : List Condition} {t : Test} (h : t ∈ (any cs).tests) :
    ∃ c ∈ cs, t ∈ c.tests := by
  have hfold (c : Condition) (cs : List Condition) (h : t ∈ (cs.foldl either c).tests) :
      t ∈ c.tests ∨ ∃ d ∈ cs, t ∈ d.tests := by
    induction cs generalizing c with
    | nil => exact .inl h
    | cons d ds ih =>
      rcases ih _ h with h | ⟨x, hx, ht⟩
      · rcases (List.mem_append.mp h : t ∈ c.tests ∨ t ∈ d.tests) with h | h
        · exact .inl h
        · exact .inr ⟨d, List.mem_cons_self, h⟩
      · exact .inr ⟨x, List.mem_cons_of_mem _ hx, ht⟩
  cases cs with
  | nil => simp [any, tests] at h
  | cons c cs =>
    rcases hfold c cs h with h | ⟨d, hd, ht⟩
    · exact ⟨c, List.mem_cons_self, h⟩
    · exact ⟨d, List.mem_cons_of_mem _ hd, ht⟩

theorem height_and_le (a b : Condition) : (and a b).height ≤ a.height + b.height := by
  have ha := a.one_le_height
  have hb := b.one_le_height
  unfold and
  split
  · simp only [height]; omega
  · simp only [height]; omega

theorem height_either_le (a b : Condition) : (either a b).height ≤ a.height + b.height := by
  have ha := a.one_le_height
  have hb := b.one_le_height
  simp only [height]
  omega

private theorem height_foldl_le (join : Condition → Condition → Condition)
    (hjoin : ∀ a b, (join a b).height ≤ a.height + b.height) (c : Condition)
    (cs : List Condition) : (cs.foldl join c).height ≤ c.height + (cs.map height).sum := by
  induction cs generalizing c with
  | nil => simp
  | cons d ds ih =>
    have hfold := ih (join c d)
    have hstep := hjoin c d
    simp only [List.foldl_cons, List.map_cons, List.sum_cons]
    omega

theorem height_all_le (cs : List Condition) : (all cs).height ≤ (cs.map height).sum + 1 := by
  cases cs with
  | nil => simp [all, height]
  | cons c cs =>
    have hfold := height_foldl_le and height_and_le c cs
    simp only [all, List.map_cons, List.sum_cons]
    omega

theorem height_any_le (cs : List Condition) : (any cs).height ≤ (cs.map height).sum + 1 := by
  cases cs with
  | nil => simp [any, height]
  | cons c cs =>
    have hfold := height_foldl_le either height_either_le c cs
    simp only [any, List.map_cons, List.sum_cons]
    omega

end Condition

theorem escapeLike_eq_self {cs : List Char} (h : ∀ c ∈ cs, c ≠ '%' ∧ c ≠ '_' ∧ c ≠ '\\') :
    Sql.escapeLike cs = cs := by
  induction cs with
  | nil => rfl
  | cons c cs ih =>
    obtain ⟨hpercent, hunderscore, hescape⟩ := h c List.mem_cons_self
    rw [Sql.escapeLike, if_neg (by simp [hpercent, hunderscore, hescape]),
      ih fun d hd => h d (List.mem_cons_of_mem c hd)]

theorem isTooLong_of_length {w : List Char} (hw : ∀ c ∈ w, c = 'a')
    (hlong : longestPattern < w.length) : isTooLong (String.ofList w) = true := by
  have hlowered : Text.lowerChars w = w := by
    refine Text.lowerFrom_eq_self fun c hc => ?_
    rw [hw c hc]
    exact ⟨by decide, by decide +kernel⟩
  have hescaped : Sql.escapeLike w = w := by
    refine escapeLike_eq_self fun c hc => ?_
    rw [hw c hc]
    decide
  have hsize := Text.length_le_utf8ByteSize (['%'] ++ w ++ ['%'])
  simp only [List.length_append, List.length_singleton] at hsize
  rw [isTooLong, Sql.likePattern, String.toList_ofList, hlowered, hescaped, decide_eq_true_eq]
  omega

section Runs

variable {g : Goal} {s : Store} {owner : Int} (hfree : g.terms.filter Condition.isFree = [])

include hfree

/-- Where a table that is read further in has no rows, nothing is looked at. -/
theorem Goal.run_bare (hbare : ((g.levels g.route).drop 2).any (fun level =>
      !(level.table = .feeds && g.keepsArchived) && isBare s level.table) = true) :
    g.run s owner = .ok () := by
  simp only [Goal.run, hfree, hbare, Condition.allHold, Except.bind]
  rfl

theorem Goal.run_filled (hfilled : ((g.levels g.route).drop 2).any (fun level =>
      !(level.table = .feeds && g.keepsArchived) && isBare s level.table) = false) :
    g.run s owner = (walk s owner g.keepsArchived
      (fun n => (if g.isInOrder g.route ∨ g.purpose = .trial then g.purpose.quota? else none).any
        fun q => q ≤ n) (g.levels g.route) 0 .empty).map fun _ => () := by
  simp only [Goal.run, hfree, hfilled, Condition.allHold, Except.bind]
  rfl

end Runs

end Scan

namespace Predicate

open Scan

mutual

/-- A bound on how deep the condition of a filter is. -/
def size : Predicate → Nat
  | conj parts => sizes parts + 1
  | disj parts => sizes parts + 1
  | no inner => size inner + 1
  | fullText language query => (Condition.ofFullText language query).height
  | _ => 4

def sizes : List Predicate → Nat
  | [] => 0
  | p :: ps => size p + sizes ps

end

theorem sizes_append (ps qs : List Predicate) : sizes (ps ++ qs) = sizes ps + sizes qs := by
  induction ps with
  | nil => simp [sizes]
  | cons p ps ih => simp only [List.cons_append, sizes, ih]; omega

mutual

theorem height_le_size (p : Predicate) : (Condition.ofPredicate p).height ≤ size p := by
  cases p with
  | conj parts =>
    have hall := Condition.height_all_le (Condition.ofPredicates parts)
    have hparts := heights_le_sizes parts
    simp only [Condition.ofPredicate, size]
    omega
  | disj parts =>
    have hany := Condition.height_any_le (Condition.ofPredicates parts)
    have hparts := heights_le_sizes parts
    simp only [Condition.ofPredicate, size]
    omega
  | no inner =>
    have hinner := height_le_size inner
    simp only [Condition.ofPredicate, size, Condition.height]
    omega
  | isNull column =>
    cases column <;> simp [Condition.ofPredicate, size, Condition.ofFilled, Column.isFilled,
      Condition.height, Condition.ofColumn, Test.height]
  | notNull column =>
    cases column <;> simp [Condition.ofPredicate, size, Condition.ofFilled, Column.isFilled,
      Condition.height, Condition.ofColumn, Test.height]
  | inList column values =>
    rcases values with _ | ⟨n, _ | ⟨m, rest⟩⟩ <;> simp [Condition.ofPredicate, size,
      Condition.ofList, Condition.height, Condition.ofColumn, Test.height]
  | fullText language query => simp [Condition.ofPredicate, size]
  | _ => simp [Condition.ofPredicate, size, Condition.height, Condition.ofColumn, Test.height]

theorem heights_le_sizes (ps : List Predicate) :
    ((Condition.ofPredicates ps).map Condition.height).sum ≤ sizes ps := by
  cases ps with
  | nil => simp [Condition.ofPredicates, sizes]
  | cons p ps =>
    have hp := height_le_size p
    have hps := heights_le_sizes ps
    simp only [Condition.ofPredicates, sizes, List.map_cons, List.sum_cons]
    omega

end

private theorem sizes_conjuncts {ps kept : List Predicate} (h : conjuncts? ps = some kept) :
    sizes kept ≤ sizes ps := by
  fun_induction conjuncts? ps generalizing kept with
  | case1 => simp only [Option.some.injEq] at h; simp [← h]
  | case2 ps ih => simp only [sizes]; have := ih h; omega
  | case3 ps => simp at h
  | case4 inner ps ih =>
    obtain ⟨rest, hrest, rfl⟩ := Option.map_eq_some_iff.mp h
    have := ih hrest
    simp only [sizes_append, sizes, size]
    omega
  | case5 p ps _ _ _ ih =>
    obtain ⟨rest, hrest, rfl⟩ := Option.map_eq_some_iff.mp h
    have := ih hrest
    simp only [sizes]
    omega

theorem size_all_le (ps : List Predicate) : size (all ps) ≤ sizes ps + 4 := by
  unfold all
  match h : conjuncts? ps with
  | none => simp [size]
  | some [] => simp [size]
  | some [p] =>
    have := sizes_conjuncts h
    simp only [sizes] at this ⊢
    omega
  | some (p :: q :: kept) =>
    have := sizes_conjuncts h
    simp only [size]
    omega

mutual

/-- The tests of a filter are those of its atoms. -/
theorem exists_atom (p : Predicate) {t : Test} (h : t ∈ (Condition.ofPredicate p).tests) :
    ∃ a ∈ p.atoms, t ∈ (Condition.ofPredicate a).tests := by
  cases p with
  | conj parts =>
    rw [Condition.ofPredicate] at h
    exact exists_atomOfAll parts (Condition.mem_tests_all h)
  | disj parts =>
    rw [Condition.ofPredicate] at h
    exact exists_atomOfAll parts (Condition.mem_tests_any h)
  | no inner =>
    rw [Condition.ofPredicate, Condition.tests] at h
    exact exists_atom inner h
  | _ => exact ⟨_, by simp [atoms], h⟩

theorem exists_atomOfAll (ps : List Predicate) {t : Test}
    (h : ∃ c ∈ Condition.ofPredicates ps, t ∈ c.tests) :
    ∃ a ∈ atomsOfAll ps, t ∈ (Condition.ofPredicate a).tests := by
  cases ps with
  | nil => simp [Condition.ofPredicates] at h
  | cons p ps =>
    simp only [Condition.ofPredicates, List.mem_cons, exists_eq_or_imp] at h
    simp only [atomsOfAll, List.mem_append]
    rcases h with h | h
    · obtain ⟨a, ha, ht⟩ := exists_atom p h
      exact ⟨a, .inl ha, ht⟩
    · obtain ⟨a, ha, ht⟩ := exists_atomOfAll ps h
      exact ⟨a, .inr ha, ht⟩

end

/-- Nothing that an atom asks may be a fault. -/
def Safe (a : Predicate) : Prop := (Condition.ofPredicate a).mayFail = false

theorem mayFail_of_each {p : Predicate} (h : Each Safe p) :
    (Condition.ofPredicate p).mayFail = false := by
  simp only [Condition.mayFail, List.any_eq_false]
  intro t ht
  obtain ⟨a, ha, hta⟩ := exists_atom p ht
  exact List.any_eq_false.mp (h a ha) t hta

theorem within_of_each {p : Predicate} (h : Each Safe p) (hsize : size p ≤ 993) :
    (Condition.ofPredicate p).Within :=
  ⟨Condition.isTooDeep_of_height (Nat.le_trans (height_le_size p) hsize), mayFail_of_each h⟩

/-- An atom that looks for no text. -/
def Plain : Predicate → Prop
  | conj _ => False
  | disj _ => False
  | no _ => False
  | contains _ _ => False
  | fullText _ _ => False
  | _ => True

theorem safe_of_plain {a : Predicate} (h : Plain a) : Safe a := by
  cases a with
  | conj parts => exact h.elim
  | disj parts => exact h.elim
  | no inner => exact h.elim
  | contains column needle => exact h.elim
  | fullText language query => exact h.elim
  | isNull column => cases column <;> rfl
  | notNull column => cases column <;> rfl
  | inList column values => rcases values with _ | ⟨n, _ | ⟨m, rest⟩⟩ <;> rfl
  | _ => rfl

theorem mayFail_of_plain {a : Predicate} (h : Plain a) {t : Test}
    (ht : t ∈ (Condition.ofPredicate a).tests) : t.mayFail = false := by
  simpa using List.any_eq_false.mp (safe_of_plain h) t ht

theorem each_plain_all {ps : List Predicate} (h : ∀ p ∈ ps, Each Plain p) : Each Plain (all ps) :=
  each_all trivial trivial h

theorem each_of_plain {a : Predicate} (h : Plain a) : Each Plain a := by
  refine (each_atom ?_).mpr h
  cases a <;> first | exact trivial | exact h

theorem within_of_plain {p : Predicate} (h : Each Plain p) (hsize : size p ≤ 993) :
    (Scan.Condition.ofPredicate p).Within :=
  within_of_each (fun a ha => safe_of_plain (h a ha)) hsize

end Predicate

namespace Store

variable (s : Store) (owner : Int) (archived : Bool) {filter : Predicate}

/-- A filter within the limits is read by without a fault. -/
theorem fault_of_within (h : (Scan.Condition.ofPredicate filter).Within) (purpose : Scan.Purpose) :
    s.fault? owner archived filter purpose = none := by
  simp only [fault?, h.1, h.2, Bool.false_eq_true, if_false, Bool.not_false, Bool.true_or, if_true]

theorem find_of_within (h : (Scan.Condition.ofPredicate filter).Within) (purpose : Scan.Purpose) :
    s.find owner archived filter purpose = .ok (s.matching owner archived filter) := by
  simp only [find, s.fault_of_within owner archived h]

theorem fault_of_ok {purpose : Scan.Purpose}
    (hdeep : (Scan.Condition.ofPredicate filter).isTooDeep = false)
    (hrun : (Scan.Goal.ofFilter (Scan.Condition.ofPredicate filter) archived purpose).run s owner =
      .ok ()) : s.fault? owner archived filter purpose = none := by
  simp [fault?, hdeep, hrun]

theorem fault_of_error {purpose : Scan.Purpose} {f : Fault}
    (hdeep : (Scan.Condition.ofPredicate filter).isTooDeep = false)
    (hfail : (Scan.Condition.ofPredicate filter).mayFail = true) (hlimit : purpose.limit? ≠ some 0)
    (hrun : (Scan.Goal.ofFilter (Scan.Condition.ofPredicate filter) archived purpose).run s owner =
      .error f) : s.fault? owner archived filter purpose = some f := by
  simp [fault?, hdeep, hfail, hlimit, hrun]

end Store

end Newsfeed
