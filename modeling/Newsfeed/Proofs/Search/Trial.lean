import Newsfeed.Proofs.Scan.Faults

/-!
Whether a search can be run. A query that is refused is noticed before any row is read, so what is
read after that meets none.
-/

namespace Newsfeed

open FullText

/-- The index can be asked every full-text query. -/
def Accepted (terms : List (String × String)) : Prop :=
  ∀ term ∈ terms, ∃ tree, FullText.compile term.1 term.2 = .ok tree

theorem accepted_append {terms others : List (String × String)} :
    Accepted (terms ++ others) ↔ Accepted terms ∧ Accepted others := by
  simp only [Accepted, List.forall_mem_append]

theorem exists_refused {terms : List (String × String)} (h : ¬Accepted terms) :
    ∃ term ∈ terms, ∃ refusal, FullText.compile term.1 term.2 = .error refusal := by
  simp only [Accepted, Classical.not_forall] at h
  obtain ⟨term, hterm, hnot⟩ := h
  cases hc : FullText.compile term.1 term.2 with
  | ok tree => exact absurd ⟨tree, hc⟩ hnot
  | error refusal => exact ⟨term, hterm, refusal, hc⟩

namespace Predicate

theorem term_of_refused {p : Predicate} {e : QueryError}
    (h : .refused e ∈ (Scan.Condition.ofPredicate p).tests) :
    ∃ language query, (language, query) ∈ p.fullTextTerms ∧
      FullText.compile language query = .error e := by
  obtain ⟨a, ha, hta⟩ := exists_atom p h
  have hatom := isAtom_of_mem p a ha
  cases a with
  | fullText language query =>
    refine ⟨language, query, (mem_fullTextTerms p language query).mpr ha, ?_⟩
    rw [Scan.Condition.ofPredicate] at hta
    rcases Scan.Condition.tests_ofFullText hta with ⟨x, hx⟩ | ⟨e', he', hsame⟩
    · cases hx
    · cases hsame
      exact he'
  | conj parts => exact hatom.elim
  | disj parts => exact hatom.elim
  | no inner => exact hatom.elim
  | contains column needle =>
    simp [Scan.Condition.ofPredicate, Scan.Condition.tests, Scan.Condition.ofColumn] at hta
  | _ => exact absurd (mayFail_of_plain (by trivial) hta) (by simp [Scan.Test.mayFail])

end Predicate

namespace Store

theorem tryTerms_ok (terms : List (String × String)) :
    tryTerms terms = .ok () ↔ Accepted terms := by
  induction terms with
  | nil => simp [tryTerms, Accepted]
  | cons term terms ih =>
    obtain ⟨language, query⟩ := term
    rw [tryTerms]
    cases hc : FullText.compile language query with
    | ok tree => simpa [Accepted, hc] using ih
    | error e => simp [Accepted, hc]

/-- The first query that is refused says why. -/
theorem tryTerms_error {terms : List (String × String)} {f : Fault}
    (h : tryTerms terms = .error f) :
    ∃ term ∈ terms, ∃ e, FullText.compile term.1 term.2 = .error e ∧ f = .ofQuery e := by
  induction terms with
  | nil => simp [tryTerms] at h
  | cons term terms ih =>
    obtain ⟨language, query⟩ := term
    rw [tryTerms] at h
    cases hc : FullText.compile language query with
    | ok tree =>
      rw [hc] at h
      obtain ⟨term, hterm, hrest⟩ := ih h
      exact ⟨term, List.mem_cons_of_mem _ hterm, hrest⟩
    | error e =>
      rw [hc] at h
      exact ⟨(language, query), List.mem_cons_self, e, hc, by simpa using h.symm⟩

/-- Where all queries are accepted, a read meets no fault of a query. -/
theorem fault_of_accepted {s : Store} {owner : Int} {archived : Bool} {filter : Predicate}
    {purpose : Scan.Purpose} {f : Fault} (hterms : Accepted filter.fullTextTerms)
    (h : s.fault? owner archived filter purpose = some f) :
    f = .tooDeep ∨ (∃ kind, f = .notText kind) ∨ f = .tooLong ∨ f = .indexOverflow := by
  rcases fault_cases h with ⟨hdeep, -⟩ | ⟨t, ht, hfails⟩
  · exact .inl hdeep
  · cases hfails with
    | number kind hnumber => exact .inr (.inl ⟨kind, rfl⟩)
    | long hlong => exact .inr (.inr (.inl rfl))
    | overflow hover => exact .inr (.inr (.inr rfl))
    | refused e =>
      obtain ⟨language, query, hterm, hrefused⟩ := Predicate.term_of_refused ht
      obtain ⟨tree, htree⟩ := hterms _ hterm
      rw [htree] at hrefused
      cases hrefused

theorem probe_of_accepted {s : Store} {owner : Int} {filter : Predicate}
    (h : Accepted filter.fullTextTerms) :
    s.probe owner filter = match s.fault? owner true filter .trial with
      | none => .ok true
      | some f => .error f := by
  have htried := (tryTerms_ok _).mpr h
  unfold probe find
  rw [htried]
  cases hf : s.fault? owner true filter .trial with
  | none => rfl
  | some f => rcases fault_of_accepted h hf with rfl | ⟨kind, rfl⟩ | rfl | rfl <;> rfl

/-- Queries one of which is refused are the answer no, unless it is refused in words that cannot be
passed on. -/
theorem probe_of_refused (s : Store) (owner : Int) {filter : Predicate}
    (h : ¬Accepted filter.fullTextTerms) :
    ∃ term ∈ filter.fullTextTerms, ∃ e, FullText.compile term.1 term.2 = .error e ∧
      s.probe owner filter =
        if e.message.toList.contains '\x00' then .error .garbled else .ok false := by
  cases htried : tryTerms filter.fullTextTerms with
  | ok a => exact absurd ((tryTerms_ok _).mp htried) h
  | error f =>
    obtain ⟨term, hterm, e, he, rfl⟩ := tryTerms_error htried
    refine ⟨term, hterm, e, he, ?_⟩
    unfold probe
    rw [htried, Fault.ofQuery]
    split <;> rfl

theorem accepted_of_probe {s : Store} {owner : Int} {filter : Predicate} {runs : Bool}
    (h : s.probe owner filter = .ok runs) : runs = true ↔ Accepted filter.fullTextTerms := by
  by_cases hterms : Accepted filter.fullTextTerms
  · rw [probe_of_accepted hterms] at h
    split at h
    · simp [← Except.ok.inj h, hterms]
    · cases h
  · obtain ⟨term, -, e, -, he⟩ := s.probe_of_refused owner hterms
    rw [he] at h
    split at h
    · cases h
    · simp [← Except.ok.inj h, hterms]

/-- No row has a part in the answer to a query that is refused. -/
theorem probe_eq_of_refused (s t : Store) (owner : Int) {filter : Predicate}
    (h : ¬Accepted filter.fullTextTerms) : s.probe owner filter = t.probe owner filter := by
  cases htried : tryTerms filter.fullTextTerms with
  | ok a => exact absurd ((tryTerms_ok _).mp htried) h
  | error f =>
    unfold probe
    rw [htried]
    rfl

end Store

end Newsfeed
