import Newsfeed.Proofs.Text.Lowered
import Newsfeed.Proofs.Text.Spaced

/-!
What has been lowercased stays as it is, and letters and numbers stay letters and numbers. Of them
only `İ` does not: its lowercase is an `i` and a mark that is neither.
-/

namespace Newsfeed.Text

/-- Lowercasing leaves the character alone, wherever it stands. -/
def IsSettled (c : Char) : Prop := c ≠ '\u03a3' ∧ lowerChar c = [c]

/-- What a run is mapped to is out of reach of every other run, or lies between the code points
that it maps. -/
theorem caseRuns_settled : ∀ r ∈ caseRuns, ∀ q ∈ caseRuns,
    (r.last - r.first + r.target < q.first ∨ q.last < r.target) ∨
      (r.last = r.first ∨ r.stride = 2) ∧ q.stride = 2 ∧ (r.target + q.first) % 2 = 1 := by
  -- As booleans the bounds cost the kernel a quarter of what their instances do.
  have hchecked : caseRuns.all fun r => caseRuns.all fun q =>
      (r.last - r.first + r.target).blt q.first || q.last.blt r.target ||
        (r.last.beq r.first || r.stride.beq 2) && q.stride.beq 2 &&
          ((r.target + q.first) % 2).beq 1 := by
    decide +kernel
  simpa only [List.all_eq_true, Bool.or_eq_true, Bool.and_eq_true, Nat.blt_eq, Nat.beq_eq,
    and_assoc] using hchecked

/-- Nothing is mapped to `İ`, which has no run of its own. -/
theorem caseRuns_undotted : ∀ r ∈ caseRuns,
    r.last - r.first + r.target < 304 ∨ 304 < r.target := by
  decide +kernel

/-- In ASCII only the capitals have a lowercase of their own. -/
theorem caseRuns_ascii : ∀ r ∈ caseRuns, r.first = 65 ∧ r.last = 90 ∨ 128 ≤ r.first := by
  decide +kernel

theorem caseRuns_alphanumeric : ∀ r ∈ caseRuns, ∃ q ∈ alphanumeric,
    q.1 ≤ r.target ∧ r.last - r.first + r.target ≤ q.2 := by
  have hchecked : caseRuns.all fun r => alphanumeric.any fun q =>
      q.1.ble r.target && (r.last - r.first + r.target).ble q.2 := by
    decide +kernel
  simpa only [List.all_eq_true, List.any_eq_true, Bool.and_eq_true, Nat.ble_eq] using hchecked

section Characters

variable {c d : Char}

theorem settled_of_no_run (hdotted : c ≠ '\u0130') (h : ∀ r ∈ caseRuns, r.has c.toNat = false) :
    IsSettled c := by
  have hnone : caseRuns.find? (fun r => r.has c.toNat) = none :=
    List.find?_eq_none.mpr fun r hr => by simp [h r hr]
  constructor
  · rintro rfl
    exact absurd hnone (by decide +kernel)
  · rw [lowerChar, if_neg hdotted, hnone]

theorem settled_of_ascii (hascii : c.toNat < 128) (hcapital : ¬isCapital c) : IsSettled c := by
  refine settled_of_no_run ?_ fun r hr => ?_
  · rintro rfl
    exact absurd hascii (by decide)
  · rw [← Bool.not_eq_true]
    intro hrun
    simp only [CaseRun.has, Bool.and_eq_true, decide_eq_true_eq] at hrun
    have hrange := caseRuns_ascii r hr
    unfold isCapital at hcapital
    omega

theorem no_run_of_image {r q : CaseRun} (hr : r ∈ caseRuns) (hq : q ∈ caseRuns) {n : Nat}
    (h : r.has n) : q.has (n - r.first + r.target) = false := by
  have happart := caseRuns_settled r hr q hq
  rw [← Bool.not_eq_true]
  intro hboth
  simp only [CaseRun.has, Bool.and_eq_true, decide_eq_true_eq, beq_iff_eq] at h hboth
  rcases happart with hreach | ⟨hone | htwo, hstride, hodd⟩
  · omega
  · rw [hstride] at hboth
    omega
  · rw [htwo] at h
    rw [hstride] at hboth
    omega

theorem settled_image {r : CaseRun} (hr : r ∈ caseRuns) {n : Nat} (h : r.has n) :
    IsSettled (Char.ofNat (n - r.first + r.target)) := by
  have hcode := CaseRun.toNat_image hr h
  refine settled_of_no_run ?_ fun q hq => ?_
  · intro hdotted
    have hundotted := caseRuns_undotted r hr
    rw [hdotted] at hcode
    simp only [CaseRun.has, Bool.and_eq_true, decide_eq_true_eq] at h
    have hdot : ('\u0130').toNat = 304 := by decide
    omega
  · rw [hcode]
    exact no_run_of_image hr hq h

theorem settled_of_lowered (h : d ∈ lowerChar c) : IsSettled d := by
  rcases lowerChar_cases h with ⟨-, rfl | rfl⟩ | ⟨r, hr, hrun, rfl⟩ | ⟨rfl, hdotted, hnone⟩
  · exact ⟨by decide, by decide +kernel⟩
  · exact ⟨by decide, by decide +kernel⟩
  · exact settled_image hr hrun
  · exact settled_of_no_run hdotted hnone

theorem alphanumeric_of_lowered (hc : isAlphanumeric c) (h : d ∈ lowerChar c) :
    isAlphanumeric d ∨ c = '\u0130' ∧ d = '\u0307' := by
  rcases lowerChar_cases h with ⟨hdotted, rfl | rfl⟩ | ⟨r, hr, hrun, rfl⟩ | ⟨rfl, -, -⟩
  · exact .inl (by decide)
  · exact .inr ⟨hdotted, rfl⟩
  · obtain ⟨q, hq, hfirst, hlast⟩ := caseRuns_alphanumeric r hr
    refine .inl ((CharSet.has_iff _ _).mpr ⟨q, hq, ?_⟩)
    rw [CaseRun.toNat_image hr hrun]
    simp only [CaseRun.has, Bool.and_eq_true, decide_eq_true_eq] at hrun
    omega
  · exact .inl hc

end Characters

section Texts

variable {before cs : List Char} {d : Char}

theorem settled_of_mem (h : d ∈ lowerFrom before cs) : IsSettled d := by
  rcases lowerFrom_cases h with rfl | rfl | ⟨c, -, hd⟩
  · exact ⟨by decide, by decide +kernel⟩
  · exact ⟨by decide, by decide +kernel⟩
  · exact settled_of_lowered hd

/-- To lowercase again changes nothing. -/
theorem lowerChars_lowerChars (cs : List Char) : lowerChars (lowerChars cs) = lowerChars cs :=
  lowerFrom_eq_self fun _ => settled_of_mem

variable (hcs : ∀ c ∈ cs, isAlphanumeric c)
include hcs

theorem alphanumeric_or_dot (h : d ∈ lowerChars cs) :
    isAlphanumeric d ∨ '\u0130' ∈ cs ∧ d = '\u0307' := by
  rcases lowerFrom_cases h with rfl | rfl | ⟨c, hc, hd⟩
  · exact .inl (by decide)
  · exact .inl (by decide)
  · rcases alphanumeric_of_lowered (hcs c hc) hd with hletter | ⟨rfl, hdot⟩
    · exact .inl hletter
    · exact .inr ⟨hc, hdot⟩

theorem lowerChars_alphanumeric (hdotted : '\u0130' ∉ cs) :
    ∀ d ∈ lowerChars cs, isAlphanumeric d := by
  intro d hd
  rcases alphanumeric_or_dot hcs hd with hletter | ⟨hmem, -⟩
  · exact hletter
  · exact absurd hmem hdotted

/-- Whatever marks it leaves behind, lowercasing leaves a letter or number. -/
theorem exists_alphanumeric (hne : cs ≠ []) : ∃ d ∈ lowerChars cs, isAlphanumeric d := by
  obtain ⟨c, rest, rfl⟩ := List.exists_cons_of_ne_nil hne
  have hc := hcs c List.mem_cons_self
  rw [lowerChars, lowerFrom]
  split
  · split
    · exact ⟨'\u03c2', List.mem_cons_self, by decide⟩
    · exact ⟨'\u03c3', List.mem_cons_self, by decide⟩
  · by_cases hdotted : c = '\u0130'
    · subst hdotted
      exact ⟨'i', List.mem_append_left _ (by decide), by decide⟩
    · obtain ⟨d, others, hd⟩ := List.exists_cons_of_ne_nil (lowerChar_ne_nil c)
      have hmem : d ∈ lowerChar c := hd ▸ List.mem_cons_self
      rcases alphanumeric_of_lowered hc hmem with hletter | ⟨heq, -⟩
      · exact ⟨d, List.mem_append_left _ hmem, hletter⟩
      · exact absurd heq hdotted

end Texts

end Newsfeed.Text
