import Mathlib.Logic.Function.Iterate
import Newsfeed.Predicate.Basic

/-!
Where the full-text parts of a filter stand. They are found by a walk that keeps the parts it still
has to look at on a stack; it looks at each part once, and at later parts before earlier ones.
-/

namespace Newsfeed.Predicate

/-- The parts right below the top. -/
def parts : Predicate → List Predicate
  | conj ps => ps
  | disj ps => ps
  | no inner => [inner]
  | _ => []

/-- The part at a place, which tells the way to it from the top. -/
def at? (p : Predicate) : List Nat → Option Predicate
  | [] => some p
  | i :: place => (p.parts[i]?).bind fun part => part.at? place

/-! ### The walk -/

mutual

/-- How many parts there are, the top included. -/
def partCount : Predicate → Nat
  | conj ps => partCounts ps + 1
  | disj ps => partCounts ps + 1
  | no inner => partCount inner + 1
  | _ => 1

def partCounts : List Predicate → Nat
  | [] => 0
  | p :: ps => partCount p + partCounts ps

end

/-- A walk through filters: what is still on the stack, the top of it first, and what has been
found. -/
structure Walk where
  stack : List Predicate
  found : List (String × String)

namespace Walk

/-- Takes the top of the stack and puts its parts there, of which the last is then on top. -/
def step (w : Walk) : Walk :=
  match w.stack with
  | [] => w
  | fullText language query :: rest => ⟨rest, w.found ++ [(language, query)]⟩
  | p :: rest => ⟨p.parts.reverse ++ rest, w.found⟩

mutual

/-- The parts of one filter are done with before the walk comes to what lies under it. -/
theorem steps_partCount (p : Predicate) (rest : List Predicate) (found : List (String × String)) :
    step^[p.partCount] ⟨p :: rest, found⟩ = ⟨rest, found ++ p.fullTextTerms⟩ := by
  cases p with
  | conj ps =>
    rw [partCount, Function.iterate_succ_apply]
    exact steps_partCounts ps rest found
  | disj ps =>
    rw [partCount, Function.iterate_succ_apply]
    exact steps_partCounts ps rest found
  | no inner =>
    rw [partCount, Function.iterate_succ_apply]
    exact steps_partCount inner rest found
  | fullText language query => rfl
  | _ =>
    simp only [fullTextTerms, List.append_nil]
    rfl

theorem steps_partCounts (ps rest : List Predicate) (found : List (String × String)) :
    step^[partCounts ps] ⟨ps.reverse ++ rest, found⟩ = ⟨rest, found ++ termsOfAll ps⟩ := by
  cases ps with
  | nil => simp [partCounts, termsOfAll]
  | cons p ps =>
    -- The last of the filters is on top, so that the first one is come to after all others.
    rw [partCounts, Function.iterate_add_apply, List.reverse_cons, List.append_assoc,
      List.singleton_append, steps_partCounts ps, steps_partCount p, termsOfAll, List.append_assoc]

end

end Walk

/-! ### Places -/

mutual

/-- The full-text parts with their places, in the order of the walk. -/
def placed : Predicate → List (List Nat × String × String)
  | conj ps => placedFrom 0 ps
  | disj ps => placedFrom 0 ps
  | no inner => (placed inner).map fun e => (0 :: e.1, e.2)
  | fullText language query => [([], language, query)]
  | _ => []

/-- Those of filters that stand one after the other, the first of them at the `i`-th place. -/
def placedFrom (i : Nat) : List Predicate → List (List Nat × String × String)
  | [] => []
  | p :: ps => placedFrom (i + 1) ps ++ (placed p).map fun e => (i :: e.1, e.2)

end

mutual

theorem terms_placed (p : Predicate) : p.placed.map Prod.snd = p.fullTextTerms := by
  cases p with
  | conj ps => exact terms_placedFrom 0 ps
  | disj ps => exact terms_placedFrom 0 ps
  | no inner =>
    rw [placed, List.map_map, fullTextTerms, ← terms_placed inner]
    rfl
  | _ => rfl

theorem terms_placedFrom (i : Nat) (ps : List Predicate) :
    (placedFrom i ps).map Prod.snd = termsOfAll ps := by
  cases ps with
  | nil => rfl
  | cons p ps =>
    rw [placedFrom, List.map_append, List.map_map, terms_placedFrom (i + 1) ps, termsOfAll,
      ← terms_placed p]
    rfl

end

/-- What is in the list of filters that stand one after the other is in one of them. -/
theorem mem_placedFrom {i : Nat} {ps : List Predicate} {place : List Nat}
    {term : String × String} : (place, term) ∈ placedFrom i ps ↔
      ∃ k rest p, place = (i + k) :: rest ∧ ps[k]? = some p ∧ (rest, term) ∈ p.placed := by
  induction ps generalizing i with
  | nil => simp [placedFrom]
  | cons p ps ih =>
    rw [placedFrom, List.mem_append, ih, List.mem_map]
    constructor
    · rintro (⟨k, rest, q, rfl, hq, hmem⟩ | ⟨⟨rest, t⟩, hmem, heq⟩)
      · exact ⟨k + 1, rest, q, by rw [Nat.add_right_comm, Nat.add_assoc], hq, hmem⟩
      · cases heq
        exact ⟨0, rest, p, rfl, rfl, hmem⟩
    · rintro ⟨k, rest, q, rfl, hq, hmem⟩
      cases k with
      | zero =>
        cases hq
        exact .inr ⟨_, hmem, rfl⟩
      | succ k => exact .inl ⟨k, rest, q, by rw [Nat.add_right_comm, Nat.add_assoc], hq, hmem⟩

/-- The walk comes to the one first: where the ways to them part, its way goes on further back. -/
def Before (e f : List Nat × String × String) : Prop := List.Lex (· > ·) e.1 f.1

theorem Before.below {e f : List Nat × String × String} (h : Before e f) (i : Nat) :
    Before (i :: e.1, e.2) (i :: f.1, f.2) := .cons h

mutual

theorem placed_ordered (p : Predicate) : p.placed.Pairwise Before := by
  cases p with
  | conj ps => exact placedFrom_ordered 0 ps
  | disj ps => exact placedFrom_ordered 0 ps
  | no inner => exact (placed_ordered inner).map _ fun _ _ h => h.below 0
  | fullText language query => exact List.pairwise_singleton _ _
  | _ => exact .nil

theorem placedFrom_ordered (i : Nat) (ps : List Predicate) :
    (placedFrom i ps).Pairwise Before := by
  cases ps with
  | nil => exact .nil
  | cons p ps =>
    rw [placedFrom, List.pairwise_append]
    refine ⟨placedFrom_ordered (i + 1) ps, (placed_ordered p).map _ fun _ _ h => h.below i, ?_⟩
    rintro ⟨place, term⟩ he _ hf
    obtain ⟨k, rest, q, rfl, -, -⟩ := mem_placedFrom.mp he
    obtain ⟨f, -, rfl⟩ := List.mem_map.mp hf
    exact .rel (by omega)

end

section Found

variable {place : List Nat} {term : String × String}

/-- Where parts stand side by side, a place below them is a place below one of them. -/
theorem mem_placed_iff {p : Predicate} (hplaced : p.placed = placedFrom 0 p.parts)
    (hterm : p ≠ fullText term.1 term.2)
    (h : ∀ q ∈ p.parts, ∀ rest, (rest, term) ∈ q.placed ↔
      q.at? rest = some (fullText term.1 term.2)) :
    (place, term) ∈ p.placed ↔ p.at? place = some (fullText term.1 term.2) := by
  rw [hplaced, mem_placedFrom]
  constructor
  · rintro ⟨k, rest, q, rfl, hq, hmem⟩
    rw [Nat.zero_add, at?, hq]
    exact (h q (List.mem_of_getElem? hq) rest).mp hmem
  · intro hat
    cases place with
    | nil => exact absurd (Option.some.inj hat) hterm
    | cons k rest =>
      obtain ⟨q, hq, hrest⟩ := Option.bind_eq_some_iff.mp hat
      exact ⟨k, rest, q, by rw [Nat.zero_add], hq, (h q (List.mem_of_getElem? hq) rest).mpr hrest⟩

mutual

theorem mem_placed (p : Predicate) (place : List Nat) :
    (place, term) ∈ p.placed ↔ p.at? place = some (fullText term.1 term.2) := by
  cases p with
  | conj ps => exact mem_placed_iff rfl nofun fun q hq => mem_placed_all ps q hq
  | disj ps => exact mem_placed_iff rfl nofun fun q hq => mem_placed_all ps q hq
  | no inner =>
    refine mem_placed_iff rfl nofun fun q hq => ?_
    rw [List.mem_singleton.mp hq]
    exact mem_placed inner
  | fullText language query =>
    cases place with
    | nil => simp [placed, at?, Prod.ext_iff, eq_comm]
    | cons i place => simp [placed, at?, parts]
  | _ => exact mem_placed_iff rfl nofun nofun

theorem mem_placed_all (ps : List Predicate) :
    ∀ p ∈ ps, ∀ place, (place, term) ∈ p.placed ↔ p.at? place = some (fullText term.1 term.2) := by
  intro p hp
  cases ps with
  | nil => cases hp
  | cons q ps =>
    rcases List.mem_cons.mp hp with rfl | hp
    · exact mem_placed p
    · exact mem_placed_all ps p hp

end

end Found

end Newsfeed.Predicate
