import Newsfeed.Text.Lowercase

/-!
What stands in a lowercased text: no capital of ASCII, and of the other characters of ASCII only
those that stood in the text before, apart from its small letters.
-/

namespace Newsfeed.Text

/-- Small letters of ASCII, and all that is not of ASCII. -/
def isImage (n : Nat) : Prop := 97 ≤ n ∧ n ≤ 122 ∨ 128 ≤ n

def isCapital (c : Char) : Prop := 65 ≤ c.toNat ∧ c.toNat ≤ 90

theorem caseRuns_target : ∀ r ∈ caseRuns,
    (97 ≤ r.target ∧ r.last - r.first + r.target ≤ 122 ∨ 128 ≤ r.target) ∧
      (r.last - r.first + r.target < 55296 ∨
        57344 ≤ r.target ∧ r.last - r.first + r.target < 1114112) := by
  decide +kernel

/-- The lowercase of a character is a character. -/
theorem CaseRun.toNat_image {r : CaseRun} (hr : r ∈ caseRuns) {n : Nat} (h : r.has n) :
    (Char.ofNat (n - r.first + r.target)).toNat = n - r.first + r.target := by
  obtain ⟨-, hvalid⟩ := caseRuns_target r hr
  simp only [has, Bool.and_eq_true, decide_eq_true_eq] at h
  have hscalar : (n - r.first + r.target).isValidChar := by
    simp only [Nat.isValidChar]
    omega
  rw [Char.ofNat, dif_pos hscalar]
  rfl

theorem CaseRun.image {r : CaseRun} (hr : r ∈ caseRuns) {n : Nat} (h : r.has n) :
    isImage (Char.ofNat (n - r.first + r.target)).toNat := by
  obtain ⟨himage, -⟩ := caseRuns_target r hr
  rw [toNat_image hr h, isImage]
  simp only [has, Bool.and_eq_true, decide_eq_true_eq] at h
  omega

theorem capital_run {c : Char} (h : isCapital c) : ∃ r ∈ caseRuns, r.has c.toNat := by
  refine ⟨⟨65, 90, 1, 97⟩, List.mem_cons_self, ?_⟩
  obtain ⟨hlow, hhigh⟩ := h
  simp [CaseRun.has, hlow, hhigh, Nat.mod_one]

theorem lowerChar_cases {c d : Char} (h : d ∈ lowerChar c) :
    (c = '\u0130' ∧ (d = 'i' ∨ d = '\u0307')) ∨
      (∃ r ∈ caseRuns, r.has c.toNat ∧ d = Char.ofNat (c.toNat - r.first + r.target)) ∨
      (d = c ∧ c ≠ '\u0130' ∧ ∀ r ∈ caseRuns, r.has c.toNat = false) := by
  unfold lowerChar at h
  split at h
  · rename_i hdotted
    exact .inl ⟨hdotted, by simpa using h⟩
  · rename_i hdotted
    split at h
    · rename_i r hfind
      have hrun : r.has c.toNat := List.find?_some (p := fun r : CaseRun => r.has c.toNat) hfind
      exact .inr (.inl ⟨r, List.mem_of_find?_eq_some hfind, hrun, List.mem_singleton.mp h⟩)
    · rename_i hnone
      refine .inr (.inr ⟨List.mem_singleton.mp h, hdotted, fun r hr => ?_⟩)
      simpa using List.find?_eq_none.mp hnone r hr

/-- A sigma is lowercased by its place, all else by itself. -/
theorem lowerFrom_cases {before cs : List Char} {d : Char} (h : d ∈ lowerFrom before cs) :
    d = '\u03c2' ∨ d = '\u03c3' ∨ ∃ c ∈ cs, d ∈ lowerChar c := by
  induction cs generalizing before with
  | nil => cases h
  | cons c cs ih =>
    rw [lowerFrom, List.mem_append] at h
    rcases h with h | h
    · split at h
      · rw [List.mem_singleton.mp h]
        split
        · exact .inl rfl
        · exact .inr (.inl rfl)
      · exact .inr (.inr ⟨c, List.mem_cons_self, h⟩)
    · rcases ih h with hfinal | hinner | ⟨b, hb, hd⟩
      · exact .inl hfinal
      · exact .inr (.inl hinner)
      · exact .inr (.inr ⟨b, List.mem_cons_of_mem c hb, hd⟩)

theorem mem_lowerChar {c d : Char} (h : d ∈ lowerChar c) :
    d = c ∧ ¬isCapital c ∨ isImage d.toNat := by
  rcases lowerChar_cases h with ⟨-, rfl | rfl⟩ | ⟨r, hr, hrun, rfl⟩ | ⟨rfl, -, hnone⟩
  · exact .inr (.inl (by decide))
  · exact .inr (.inr (by decide))
  · exact .inr (CaseRun.image hr hrun)
  · refine .inl ⟨rfl, fun hcapital => ?_⟩
    obtain ⟨r, hr, hrun⟩ := capital_run hcapital
    rw [hnone r hr] at hrun
    cases hrun

theorem mem_lowerFrom {before cs : List Char} {d : Char} (h : d ∈ lowerFrom before cs) :
    d ∈ cs ∧ ¬isCapital d ∨ isImage d.toNat := by
  rcases lowerFrom_cases h with rfl | rfl | ⟨c, hc, hd⟩
  · exact .inr (.inr (by decide))
  · exact .inr (.inr (by decide))
  · rcases mem_lowerChar hd with ⟨rfl, hcapital⟩ | himage
    · exact .inl ⟨hc, hcapital⟩
    · exact .inr himage

/-- A sign of ASCII that stands in a lowercased text stood in the text. -/
theorem mem_of_mem_lowerChars {cs : List Char} {d : Char} (hd : ¬isImage d.toNat)
    (h : d ∈ lowerChars cs) : d ∈ cs := by
  rcases mem_lowerFrom h with ⟨hmem, -⟩ | himage
  · exact hmem
  · exact absurd himage hd

theorem lowerChars_not_capital {cs : List Char} {d : Char} (h : d ∈ lowerChars cs) :
    ¬isCapital d := by
  rcases mem_lowerFrom h with ⟨-, hcapital⟩ | himage
  · exact hcapital
  · intro hcapital
    simp only [isCapital, isImage] at hcapital himage
    omega

theorem lowerFrom_eq_self {before cs : List Char}
    (h : ∀ c ∈ cs, c ≠ '\u03a3' ∧ lowerChar c = [c]) : lowerFrom before cs = cs := by
  induction cs generalizing before with
  | nil => rfl
  | cons c cs ih =>
    obtain ⟨hsigma, hc⟩ := h c List.mem_cons_self
    rw [lowerFrom, if_neg hsigma, hc, ih fun d hd => h d (List.mem_cons_of_mem c hd)]
    rfl

theorem length_le_utf8ByteSize (cs : List Char) :
    cs.length ≤ (String.ofList cs).utf8ByteSize := by
  induction cs with
  | nil => exact Nat.zero_le _
  | cons c cs ih =>
    have hsize := Char.utf8Size_pos c
    rw [String.ofList_cons, String.utf8ByteSize_append, String.utf8ByteSize_singleton,
      List.length_cons]
    omega

end Newsfeed.Text
