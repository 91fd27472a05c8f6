import Newsfeed.Predicate.Basic

/-!
The parts of a filter that have no parts of their own, wherever they stand in it.
-/

namespace Newsfeed

namespace Predicate

mutual

def atoms : Predicate → List Predicate
  | conj parts => atomsOfAll parts
  | disj parts => atomsOfAll parts
  | no inner => atoms inner
  | p => [p]

def atomsOfAll : List Predicate → List Predicate
  | [] => []
  | p :: ps => atoms p ++ atomsOfAll ps

end

theorem mem_atomsOfAll {a : Predicate} {ps : List Predicate} :
    a ∈ atomsOfAll ps ↔ ∃ p ∈ ps, a ∈ atoms p := by
  induction ps with
  | nil => simp [atomsOfAll]
  | cons p ps ih => simp [atomsOfAll, ih]

/-- The filter has no parts of its own. -/
def IsAtom : Predicate → Prop
  | conj _ => False
  | disj _ => False
  | no _ => False
  | _ => True

mutual

theorem isAtom_of_mem (p : Predicate) : ∀ a ∈ atoms p, IsAtom a := by
  intro a ha
  cases p with
  | conj parts => exact isAtom_of_mem_all parts a (by simpa [atoms] using ha)
  | disj parts => exact isAtom_of_mem_all parts a (by simpa [atoms] using ha)
  | no inner => exact isAtom_of_mem inner a (by simpa [atoms] using ha)
  | _ =>
    simp only [atoms, List.mem_singleton] at ha
    rw [ha]
    trivial

theorem isAtom_of_mem_all (ps : List Predicate) : ∀ a ∈ atomsOfAll ps, IsAtom a := by
  intro a ha
  cases ps with
  | nil => cases ha
  | cons p ps =>
    rcases List.mem_append.mp ha with ha | ha
    · exact isAtom_of_mem p a ha
    · exact isAtom_of_mem_all ps a ha

end

mutual

/-- The full-text queries of a filter are those of its atoms. -/
theorem mem_fullTextTerms (p : Predicate) (language query : String) :
    (language, query) ∈ p.fullTextTerms ↔ fullText language query ∈ p.atoms := by
  cases p with
  | conj parts => simpa only [fullTextTerms, atoms] using mem_termsOfAll parts language query
  | disj parts => simpa only [fullTextTerms, atoms] using mem_termsOfAll parts language query
  | no inner => simpa only [fullTextTerms, atoms] using mem_fullTextTerms inner language query
  | _ => simp [fullTextTerms, atoms]

theorem mem_termsOfAll (ps : List Predicate) (language query : String) :
    (language, query) ∈ termsOfAll ps ↔ fullText language query ∈ atomsOfAll ps := by
  cases ps with
  | nil => simp [termsOfAll, atomsOfAll]
  | cons p ps =>
    have hp := mem_fullTextTerms p language query
    have hps := mem_termsOfAll ps language query
    simp only [termsOfAll, atomsOfAll, List.mem_append, hp, hps, or_comm]

end

private theorem mem_conjuncts {ps kept : List Predicate} (h : conjuncts? ps = some kept)
    {a : Predicate} (ha : a ∈ atomsOfAll kept) : a ∈ atomsOfAll ps := by
  fun_induction conjuncts? ps generalizing kept with
  | case1 => rwa [← Option.some.inj h] at ha
  | case2 ps ih => exact List.mem_append_right _ (ih h ha)
  | case3 ps => simp at h
  | case4 inner ps ih =>
    obtain ⟨rest, hrest, rfl⟩ := Option.map_eq_some_iff.mp h
    obtain ⟨p, hp, hap⟩ := mem_atomsOfAll.mp ha
    rw [atomsOfAll, List.mem_append]
    rcases List.mem_append.mp hp with hp | hp
    · exact .inl (by rw [atoms]; exact mem_atomsOfAll.mpr ⟨p, hp, hap⟩)
    · exact .inr (ih hrest (mem_atomsOfAll.mpr ⟨p, hp, hap⟩))
  | case5 p ps _ _ _ ih =>
    obtain ⟨rest, hrest, rfl⟩ := Option.map_eq_some_iff.mp h
    rw [atomsOfAll, List.mem_append] at ha ⊢
    exact ha.imp_right (ih hrest)

private theorem mem_disjuncts {ps kept : List Predicate} (h : disjuncts? ps = some kept)
    {a : Predicate} (ha : a ∈ atomsOfAll kept) : a ∈ atomsOfAll ps := by
  fun_induction disjuncts? ps generalizing kept with
  | case1 => rwa [← Option.some.inj h] at ha
  | case2 ps ih => exact List.mem_append_right _ (ih h ha)
  | case3 ps => simp at h
  | case4 p ps _ _ ih =>
    obtain ⟨rest, hrest, rfl⟩ := Option.map_eq_some_iff.mp h
    rw [atomsOfAll, List.mem_append] at ha ⊢
    exact ha.imp_right (ih hrest)

/-- Something that all atoms of a filter have. -/
def Each (P : Predicate → Prop) (p : Predicate) : Prop := ∀ a ∈ p.atoms, P a

variable {P : Predicate → Prop}

theorem each_atom {a : Predicate} (hatom : IsAtom a) : Each P a ↔ P a := by
  cases a <;> simp_all [IsAtom, Each, atoms]

theorem each_all (halways : P always) (hnever : P never) {ps : List Predicate}
    (h : ∀ p ∈ ps, Each P p) : Each P (all ps) := by
  have hkept (kept : List Predicate) (hkept : conjuncts? ps = some kept) :
      ∀ a ∈ atomsOfAll kept, P a := fun a ha => by
    obtain ⟨p, hp, hap⟩ := mem_atomsOfAll.mp (mem_conjuncts hkept ha)
    exact h p hp a hap
  unfold all
  match hc : conjuncts? ps with
  | none => simpa [Each, atoms] using hnever
  | some [] => simpa [Each, atoms] using halways
  | some [p] => simpa [Each, atomsOfAll] using hkept _ hc
  | some (p :: q :: rest) => simpa only [Each, atoms] using hkept _ hc

theorem each_any (halways : P always) (hnever : P never) {ps : List Predicate}
    (h : ∀ p ∈ ps, Each P p) : Each P (any ps) := by
  have hkept (kept : List Predicate) (hkept : disjuncts? ps = some kept) :
      ∀ a ∈ atomsOfAll kept, P a := fun a ha => by
    obtain ⟨p, hp, hap⟩ := mem_atomsOfAll.mp (mem_disjuncts hkept ha)
    exact h p hp a hap
  unfold any
  match hc : disjuncts? ps with
  | none => simpa [Each, atoms] using halways
  | some [] => simpa [Each, atoms] using hnever
  | some [p] => simpa [Each, atomsOfAll] using hkept _ hc
  | some (p :: q :: rest) => simpa only [Each, atoms] using hkept _ hc

end Predicate

end Newsfeed
