import Newsfeed.Proofs.Sql.Faithful
import Newsfeed.Proofs.Store.Sound

/-!
What texts are like a pattern, by the signs of the pattern, and that the pattern of a needle has
none: whatever stands in the needle is sought as it is, in lowercase.
-/

namespace Newsfeed.Sql

open Newsfeed.Text Predicate

/-- A text is like a pattern. -/
inductive Like (escape : Char) : List Char → List Char → Prop
  | done : Like escape [] []
  | run (front : List Char) {ps text : List Char} (h : Like escape ps text) :
    Like escape ('%' :: ps) (front ++ text)
  | one (c : Char) {ps text : List Char} (h : Like escape ps text) :
    Like escape ('_' :: ps) (c :: text)
  | escaped {p c : Char} {ps text : List Char} (hsame : isSameLetter p c)
    (h : Like escape ps text) : Like escape (escape :: p :: ps) (c :: text)
  | letter {p c : Char} {ps text : List Char} (hrun : p ≠ '%') (hone : p ≠ '_')
    (hescape : p ≠ escape) (hsame : isSameLetter p c) (h : Like escape ps text) :
    Like escape (p :: ps) (c :: text)

namespace Like

variable {escape p : Char} {ps text : List Char}

theorem nil_iff : Like escape [] text ↔ text = [] := by
  constructor
  · rintro ⟨⟩
    rfl
  · rintro rfl
    exact .done

theorem run_iff (hrun : escape ≠ '%') :
    Like escape ('%' :: ps) text ↔ ∃ rest, rest <:+ text ∧ Like escape ps rest := by
  constructor
  · intro h
    cases h with
    | run front h => exact ⟨_, List.suffix_append _ _, h⟩
    | escaped => exact absurd rfl hrun
    | letter hplain => exact absurd rfl hplain
  · rintro ⟨rest, ⟨front, rfl⟩, h⟩
    exact .run front h

theorem one_iff (hone : escape ≠ '_') :
    Like escape ('_' :: ps) text ↔ ∃ c rest, text = c :: rest ∧ Like escape ps rest := by
  constructor
  · intro h
    cases h with
    | one c h => exact ⟨c, _, rfl, h⟩
    | escaped => exact absurd rfl hone
    | letter _ hplain => exact absurd rfl hplain
  · rintro ⟨c, rest, rfl, h⟩
    exact .one c h

section Escape

variable (hrun : escape ≠ '%') (hone : escape ≠ '_')
include hrun hone

/-- Nothing is like a pattern that ends in its escape. -/
theorem not_dangling : ¬Like escape [escape] text := by
  intro h
  cases h with
  | run => exact hrun rfl
  | one => exact hone rfl
  | letter _ _ hplain => exact hplain rfl

theorem escaped_iff : Like escape (escape :: p :: ps) text ↔
    ∃ c rest, text = c :: rest ∧ isSameLetter p c ∧ Like escape ps rest := by
  constructor
  · intro h
    cases h with
    | run => exact absurd rfl hrun
    | one => exact absurd rfl hone
    | escaped hsame h => exact ⟨_, _, rfl, hsame, h⟩
    | letter _ _ hplain => exact absurd rfl hplain
  · rintro ⟨c, rest, rfl, hsame, h⟩
    exact .escaped hsame h

end Escape

theorem letter_iff (hrun : p ≠ '%') (hone : p ≠ '_') (hescape : p ≠ escape) :
    Like escape (p :: ps) text ↔
      ∃ c rest, text = c :: rest ∧ isSameLetter p c ∧ Like escape ps rest := by
  constructor
  · intro h
    cases h with
    | run => exact absurd rfl hrun
    | one => exact absurd rfl hone
    | escaped => exact absurd rfl hescape
    | letter _ _ _ hsame h => exact ⟨_, _, rfl, hsame, h⟩
  · rintro ⟨c, rest, rfl, hsame, h⟩
    exact .letter hrun hone hescape hsame h

end Like

theorem onFirst_iff {f : Char → List Char → Bool} {text : List Char} :
    onFirst f text ↔ ∃ c rest, text = c :: rest ∧ f c rest := by
  cases text <;> simp [onFirst]

/-- The matcher finds out what texts are like a pattern, inside an escape and outside. -/
theorem matchesFrom_iff {escape : Char} (hrun : escape ≠ '%') (hone : escape ≠ '_')
    (ps text : List Char) :
    (matchesFrom escape false ps text ↔ Like escape ps text) ∧
      (matchesFrom escape true ps text ↔ Like escape (escape :: ps) text) := by
  induction ps generalizing text with
  | nil =>
    refine ⟨?_, ?_⟩
    · rw [matchesFrom, List.isEmpty_iff, Like.nil_iff]
    · simp [matchesFrom, Like.not_dangling hrun hone]
  | cons p ps ih =>
    have hplain (text : List Char) := (ih text).1
    refine ⟨?_, ?_⟩
    · by_cases hpercent : p = '%'
      · subst hpercent
        rw [matchesFrom_run, List.any_eq_true, Like.run_iff hrun]
        simp only [List.mem_tails, hplain]
      · by_cases hescape : p = escape
        · subst hescape
          rw [matchesFrom, if_neg hpercent, if_pos rfl]
          exact (ih text).2
        · rw [matchesFrom, if_neg hpercent, if_neg hescape, onFirst_iff]
          by_cases hunderscore : p = '_'
          · subst hunderscore
            simp [Like.one_iff hone, hplain]
          · simp [Like.letter_iff hpercent hunderscore hescape, hunderscore, hplain]
    · rw [matchesFrom, onFirst_iff, Like.escaped_iff hrun hone]
      simp [hplain]

section Needle

variable {needle text : String}

/-- Lowercasing makes no NUL. -/
theorem no_nul_lowered (h : '\x00' ∉ text.toList) : '\x00' ∉ lowerChars text.toList :=
  fun hmem => h (mem_of_mem_lowerChars (by simp [isImage]) hmem)

theorem holdsNeedle_iff (hneedle : '\x00' ∉ needle.toList) (htext : '\x00' ∉ text.toList) :
    holdsNeedle needle text ↔ (lowercase needle).toList <:+: (lowercase text).toList := by
  have hsought := no_nul_lowered hneedle
  rw [holdsNeedle, lowercase, lowercase, String.toList_ofList, String.toList_ofList,
    untilNul_eq_self (no_nul_lowered htext), if_neg (by simpa using hsought), holdsRun_eq,
    List.any_eq_true]
  simp only [List.mem_tails, List.isPrefixOf_iff_prefix, List.infix_iff_prefix_suffix]
  exact exists_congr fun _ => and_comm

/-- Where there is no NUL, nothing in a needle is a sign to the database: a text in lowercase is
like its pattern if the needle in lowercase stands in it, and of a column with the text the filter
says just this. -/
theorem needles_match_literally (hneedle : '\x00' ∉ needle.toList) (htext : '\x00' ∉ text.toList) :
    (Like '\\' (likePattern needle).toList (lowercase text).toList ↔
      (lowercase needle).toList <:+: (lowercase text).toList) ∧
    (isLike '\\' (likePattern needle) (lowercase text) ↔
      (lowercase needle).toList <:+: (lowercase text).toList) ∧
    ∀ (s : Store) (r : Joined) (column : Column), s.Sound → column.isNumber = false →
      (s.facts r).cell column = .text text →
      (Expr.ofPredicate (.contains column needle)).Means s r.scope
        (some (decide ((lowercase needle).toList <:+: (lowercase text).toList))) := by
  have hholds := holdsNeedle_iff hneedle htext
  have hlike := isLike_likePattern needle text
  have hlowered : '\x00' ∉ (lowercase text).toList := by
    rw [lowercase, String.toList_ofList]
    exact no_nul_lowered htext
  refine ⟨?_, by rw [hlike, hholds], ?_⟩
  · rw [isLike, untilNul_eq_self (no_nul_likePattern (no_nul_lowered hneedle)),
      untilNul_eq_self hlowered] at hlike
    rw [← (matchesFrom_iff (by decide) (by decide) _ _).1, hlike, hholds]
  · intro s r column hsound hcolumn hcell
    have hmeans := means_predicate hsound.index r (p := .contains column needle)
      ((each_atom (a := .contains column needle) trivial).mpr hcolumn)
    rwa [truth, hcell, Cell.holdsText, Bool.eq_iff_iff.mpr (hholds.trans decide_eq_true_iff.symm)]
      at hmeans

end Needle

/-- One article has signs of a pattern in its title, and the other what they could stand for. -/
def signedStore : Store :=
  .ofHistory (["5%_\\ off", "5 or 6 off"].map fun title => .arrival 1 none title 1715342400)

/-- Signs are found where they stand and nowhere else. -/
theorem needles_match_signs :
    '\x00' ∉ "5%_\\ O".toList ∧ '\x00' ∉ "5%_\\ off".toList ∧ '\x00' ∉ "5 or 6 off".toList ∧
      signedStore.Sound ∧
      Like '\\' (likePattern "5%_\\ O").toList (lowercase "5%_\\ off").toList ∧
      ¬Like '\\' (likePattern "5%_\\ O").toList (lowercase "5 or 6 off").toList ∧
      ∀ r ∈ signedStore.joined true,
        (Expr.ofPredicate (.contains .title "5%_\\ O")).Means signedStore r.scope
          (some (r.article.id == 1)) := by
  have hneedle : '\x00' ∉ "5%_\\ O".toList := by decide
  have hsigned : '\x00' ∉ "5%_\\ off".toList := by decide
  have hplain : '\x00' ∉ "5 or 6 off".toList := by decide
  have hsound : signedStore.Sound := Store.Reachable.sound ⟨_, rfl⟩
  obtain ⟨hsignedLike, -, hsignedMeans⟩ := needles_match_literally hneedle hsigned
  obtain ⟨hplainLike, -, hplainMeans⟩ := needles_match_literally hneedle hplain
  refine ⟨hneedle, hsigned, hplain, hsound, hsignedLike.mpr (by decide +kernel),
    fun hlike => absurd (hplainLike.mp hlike) (by decide +kernel), fun r hr => ?_⟩
  have htitles : ∀ r ∈ signedStore.joined true,
      (r.article.id = 1 ∧ (signedStore.facts r).cell .title = .text "5%_\\ off") ∨
        (r.article.id = 2 ∧ (signedStore.facts r).cell .title = .text "5 or 6 off") := by
    decide +kernel
  rcases htitles r hr with ⟨hid, htitle⟩ | ⟨hid, htitle⟩
  · rw [hid]
    exact hsignedMeans signedStore r .title hsound rfl htitle
  · rw [hid]
    exact hplainMeans signedStore r .title hsound rfl htitle

end Newsfeed.Sql
