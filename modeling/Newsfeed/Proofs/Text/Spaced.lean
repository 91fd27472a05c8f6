import Mathlib.Data.Bool.AllAny
import Mathlib.Data.List.Basic
import Newsfeed.Text.Alphanumeric
import Newsfeed.Text.Blank
import Newsfeed.Text.Lowercase

/-!
Words with blanks between them. Lowercasing looks across punctuation but not across a blank, so a
spaced text is lowercased word by word.
-/

namespace Newsfeed.Text

namespace CharSet

/-- The intervals stand in the order of their first code points. -/
def Sorted (s : CharSet) : Prop := s.Pairwise fun r q => r.1 ≤ q.1

instance (s : CharSet) : Decidable s.Sorted := decidable_of_iff _ List.isChain_iff_pairwise

/-- No interval of one set meets one of the other. -/
def Apart (s t : CharSet) : Prop := ∀ r ∈ s, ∀ q ∈ t, r.2 < q.1 ∨ q.2 < r.1

/-- Goes through sorted sets side by side, as long as no interval meets one of the other set. -/
def goesBeside : CharSet → CharSet → Bool
  | _, [] => true
  | s, q :: t =>
    let rest := s.dropWhile fun r => r.2 < q.1
    (rest.head?.all fun r => q.2 < r.1) && goesBeside rest t

variable {s t : CharSet}

theorem apart_of_goesBeside (hs : s.Sorted) (ht : t.Sorted) (h : s.goesBeside t) : s.Apart t := by
  induction t generalizing s with
  | nil => simp [Apart]
  | cons q t ih =>
    obtain ⟨hnext, hrest⟩ := List.pairwise_cons.mp ht
    simp only [goesBeside, Bool.and_eq_true] at h
    generalize hbehind : s.dropWhile (fun r => decide (r.2 < q.1)) = behind at h
    have hsplit := List.takeWhile_append_dropWhile (p := fun r => decide (r.2 < q.1)) (l := s)
    rw [hbehind] at hsplit
    have hsorted : Sorted behind := hs.sublist (hsplit ▸ List.sublist_append_right _ _)
    have hapart := ih hsorted hrest h.2
    intro r hr
    rw [← hsplit, List.mem_append] at hr
    rcases hr with hr | hr
    · -- It ends before the next one of the other set, and so before all of them.
      have hends : r.2 < q.1 := by
        simpa using List.all_eq_true.mp List.all_takeWhile r hr
      intro q' hq'
      rcases List.mem_cons.mp hq' with rfl | hq'
      · exact .inl hends
      · exact .inl (Nat.lt_of_lt_of_le hends (hnext q' hq'))
    · intro q' hq'
      rcases List.mem_cons.mp hq' with rfl | hq'
      · refine .inr ?_
        cases behind with
        | nil => cases hr
        | cons first behind =>
          have hfirst : q'.2 < first.1 := by simpa using h.1
          rcases List.mem_cons.mp hr with rfl | hr
          · exact hfirst
          · exact Nat.lt_of_lt_of_le hfirst ((List.pairwise_cons.mp hsorted).1 r hr)
      · exact hapart r hr q' hq'

theorem Apart.has_right (h : s.Apart t) {c : Char} (hs : s.has c) : t.has c = false := by
  rw [← Bool.not_eq_true]
  intro ht
  obtain ⟨r, hr, hrc⟩ := (has_iff s c).mp hs
  obtain ⟨q, hq, hqc⟩ := (has_iff t c).mp ht
  have := h r hr q hq
  omega

end CharSet

section Blanks

/-- The code points that have a lowercase mapping, with those between them. -/
def mapped : CharSet := caseRuns.map fun r => (r.first, r.last)

theorem blanks_beside : ∀ s ∈ [alphanumeric, cased, caseIgnorable, mapped],
    s.Sorted ∧ CharSet.goesBeside blanks s := by
  decide +kernel

theorem blanks_apart {s : CharSet} (hs : s ∈ [alphanumeric, cased, caseIgnorable, mapped]) :
    CharSet.Apart blanks s :=
  CharSet.apart_of_goesBeside (by decide) (blanks_beside s hs).1 (blanks_beside s hs).2

variable {c : Char}

theorem isAlphanumeric_of_blank (h : isBlank c) : isAlphanumeric c = false :=
  (blanks_apart (by simp)).has_right h

theorem isBlank_of_alphanumeric (h : isAlphanumeric c) : isBlank c = false := by
  rw [← Bool.not_eq_true]
  intro hblank
  rw [isAlphanumeric_of_blank hblank] at h
  cases h

theorem cased_of_blank (h : isBlank c) : cased.has c = false := (blanks_apart (by simp)).has_right h

theorem caseIgnorable_of_blank (h : isBlank c) : caseIgnorable.has c = false :=
  (blanks_apart (by simp)).has_right h

theorem mapped_of_run {r : CaseRun} (hr : r ∈ caseRuns) (h : r.has c.toNat) : mapped.has c := by
  simp only [CaseRun.has, Bool.and_eq_true, decide_eq_true_eq] at h
  exact (CharSet.has_iff _ _).mpr ⟨_, List.mem_map_of_mem hr, h.1⟩

theorem lowerChar_blank (h : isBlank c) : lowerChar c = [c] := by
  unfold lowerChar
  rw [if_neg (by rintro rfl; revert h; decide)]
  cases hfind : caseRuns.find? fun r => r.has c.toNat with
  | none => rfl
  | some r =>
    have hrun : r.has c.toNat := List.find?_some (p := fun r : CaseRun => r.has c.toNat) hfind
    have hmapped := mapped_of_run (List.mem_of_find?_eq_some hfind) hrun
    rw [(blanks_apart (by simp)).has_right h] at hmapped
    cases hmapped

end Blanks

section Lowercasing

variable {b : Char} (hb : isBlank b)
include hb

theorem reachesCased_append_blank (cs rest : List Char) :
    reachesCased (cs ++ b :: rest) = reachesCased cs := by
  induction cs with
  | nil =>
    simp [reachesCased, caseIgnorable_of_blank hb, cased_of_blank hb]
  | cons c cs ih =>
    unfold reachesCased at ih ⊢
    rw [List.cons_append, List.dropWhile_cons, List.dropWhile_cons]
    cases caseIgnorable.has c with
    | true => exact ih
    | false => rfl

theorem lowerFrom_of_blank_before (before past cs : List Char) :
    lowerFrom (before ++ b :: past) cs = lowerFrom before cs := by
  induction cs generalizing before with
  | nil => rfl
  | cons c cs ih =>
    rw [lowerFrom, lowerFrom, ← List.cons_append, ih, endsWord, endsWord,
      reachesCased_append_blank hb]

theorem lowerFrom_blank (before w rest : List Char) :
    lowerFrom before (w ++ b :: rest) = lowerFrom before w ++ b :: lowerChars rest := by
  induction w generalizing before with
  | nil =>
    have hsigma : b ≠ '\u03a3' := by
      rintro rfl
      revert hb
      decide
    have hbehind := lowerFrom_of_blank_before hb [] before rest
    rw [List.nil_append] at hbehind
    rw [List.nil_append, lowerFrom.eq_2, if_neg hsigma, lowerChar_blank hb, hbehind]
    rfl
  | cons c w ih =>
    rw [List.cons_append, lowerFrom, lowerFrom, ih, List.append_assoc, endsWord, endsWord,
      reachesCased_append_blank hb]

/-- What stands before a blank is lowercased without regard to what stands behind it. -/
theorem lowerChars_blank (w rest : List Char) :
    lowerChars (w ++ b :: rest) = lowerChars w ++ b :: lowerChars rest :=
  lowerFrom_blank hb [] w rest

end Lowercasing

theorem lowerChars_gap {gap : List Char} (hgap : ∀ c ∈ gap, isBlank c) (rest : List Char) :
    lowerChars (gap ++ rest) = gap ++ lowerChars rest := by
  induction gap with
  | nil => rfl
  | cons b gap ih =>
    have hsplit := lowerChars_blank (hgap b List.mem_cons_self) [] (gap ++ rest)
    rw [List.nil_append] at hsplit
    rw [List.cons_append, hsplit, ih fun c hc => hgap c (List.mem_cons_of_mem b hc)]
    rfl

theorem lowerChar_ne_nil (c : Char) : lowerChar c ≠ [] := by
  unfold lowerChar
  split
  · exact List.cons_ne_nil _ _
  · split <;> exact List.cons_ne_nil _ _

theorem lowerChars_ne_nil {cs : List Char} (h : cs ≠ []) : lowerChars cs ≠ [] := by
  obtain ⟨c, rest, rfl⟩ := List.exists_cons_of_ne_nil h
  rw [lowerChars, lowerFrom]
  refine List.append_ne_nil_of_left_ne_nil ?_ _
  split
  · exact List.cons_ne_nil _ _
  · exact lowerChar_ne_nil c

theorem trimStart_eq_self {cs : List Char} (h : ∀ c ∈ cs.head?, isBlank c = false) :
    trimStart cs = cs := by
  cases cs with
  | nil => rfl
  | cons c cs => rw [trimStart, List.dropWhile_cons_of_neg (by simp [h c rfl])]

theorem trimChars_eq_self {cs : List Char} (hhead : ∀ c ∈ cs.head?, isBlank c = false)
    (hlast : ∀ c ∈ cs.getLast?, isBlank c = false) : trimChars cs = cs := by
  have hreverse : trimStart cs.reverse = cs.reverse := by
    refine trimStart_eq_self fun c hc => hlast c ?_
    rwa [List.head?_reverse] at hc
  rw [trimChars, trimStart_eq_self hhead, trimEnd, ← trimStart, hreverse, List.reverse_reverse]

/-- Pieces of a text in order, with blanks between them. -/
inductive Spaced : List (List Char) → List Char → Prop
  | last (w : List Char) : Spaced [w] w
  | more {w gap cs : List Char} {ws : List (List Char)} (hgap : gap ≠ [])
      (hblank : ∀ c ∈ gap, isBlank c) (rest : Spaced ws cs) : Spaced (w :: ws) (w ++ gap ++ cs)

theorem mem_intercalate {α : Type} {sep : List α} {xs : List (List α)} {a : α}
    (h : a ∈ sep.intercalate xs) : a ∈ sep ∨ ∃ x ∈ xs, a ∈ x := by
  induction xs with
  | nil => cases h
  | cons x xs ih =>
    cases xs with
    | nil => exact .inr ⟨x, List.mem_cons_self, by simpa using h⟩
    | cons y ys =>
      rw [List.intercalate_cons_cons, List.append_assoc, List.mem_append, List.mem_append] at h
      rcases h with h | h | h
      · exact .inr ⟨x, List.mem_cons_self, h⟩
      · exact .inl h
      · exact (ih h).imp_right fun ⟨z, hz, haz⟩ => ⟨z, List.mem_cons_of_mem x hz, haz⟩

namespace Spaced

variable {ws : List (List Char)} {cs : List Char}

theorem ne_nil (h : Spaced ws cs) : ws ≠ [] := by
  cases h <;> exact List.cons_ne_nil _ _

theorem text_ne_nil (h : Spaced ws cs) (hws : ∀ w ∈ ws, w ≠ []) : cs ≠ [] := by
  cases h with
  | last => exact hws cs List.mem_cons_self
  | more hgap hblank rest => simp [hgap]

theorem head_mem (h : Spaced ws cs) (hws : ∀ w ∈ ws, w ≠ []) {c : Char} (hc : c ∈ cs.head?) :
    ∃ w ∈ ws, c ∈ w := by
  cases h with
  | last => exact ⟨cs, List.mem_cons_self, List.mem_of_mem_head? hc⟩
  | @more w gap cs ws hgap hblank rest =>
    obtain ⟨first, word, rfl⟩ := List.exists_cons_of_ne_nil (hws w List.mem_cons_self)
    cases hc
    exact ⟨_, List.mem_cons_self, List.mem_cons_self⟩

theorem last_mem (h : Spaced ws cs) (hws : ∀ w ∈ ws, w ≠ []) {c : Char} (hc : c ∈ cs.getLast?) :
    ∃ w ∈ ws, c ∈ w := by
  induction h with
  | last w => exact ⟨w, List.mem_cons_self, List.mem_of_getLast? hc⟩
  | more hgap hblank rest ih =>
    have hrest := fun w hw => hws w (List.mem_cons_of_mem _ hw)
    rw [List.getLast?_append_of_ne_nil _ (rest.text_ne_nil hrest)] at hc
    obtain ⟨w, hw, hcw⟩ := ih hrest hc
    exact ⟨w, List.mem_cons_of_mem _ hw, hcw⟩

theorem trimChars (h : Spaced ws cs) (hws : ∀ w ∈ ws, w ≠ [])
    (hnone : ∀ w ∈ ws, ∀ c ∈ w, isBlank c = false) : Text.trimChars cs = cs := by
  refine trimChars_eq_self (fun c hc => ?_) fun c hc => ?_
  · obtain ⟨w, hw, hcw⟩ := h.head_mem hws hc
    exact hnone w hw c hcw
  · obtain ⟨w, hw, hcw⟩ := h.last_mem hws hc
    exact hnone w hw c hcw

theorem lowerChars (h : Spaced ws cs) : Spaced (ws.map Text.lowerChars) (Text.lowerChars cs) := by
  induction h with
  | last w => exact .last _
  | @more w gap cs ws hgap hblank rest ih =>
    obtain ⟨b, gap, rfl⟩ := List.exists_cons_of_ne_nil hgap
    have hb : isBlank b := hblank b List.mem_cons_self
    have hrest := lowerChars_gap (fun c hc => hblank c (List.mem_cons_of_mem b hc)) cs
    rw [List.append_assoc, List.cons_append, lowerChars_blank hb, hrest]
    have hspaced := Spaced.more (w := Text.lowerChars w) hgap hblank ih
    rwa [List.append_assoc, List.cons_append] at hspaced

end Spaced

end Newsfeed.Text
