import Mathlib.Data.List.Forall2
import Newsfeed.Proofs.FullText.Joined

/-!
Words next to each other. A query whose words follow each other without gaps, bracketed in any way,
is told by its words alone. Where only the last is starred, it finds the documents in which they
stand in that order. A star before the last makes the index look for two phrases near each other,
which may touch or overlap in either order.
-/

namespace Newsfeed.FullText

/-- A word to look for; starred, it stands for every word that starts with it. -/
structure Mark where
  word : String
  starred : Bool
  deriving DecidableEq, Repr

def Mark.Fits (m : Mark) (d : String) : Prop :=
  if m.starred then m.word.toList <+: d.toList else m.word = d

instance (m : Mark) (d : String) : Decidable (m.Fits d) :=
  inferInstanceAs (Decidable (if m.starred then _ else _))

/-- The document begins with words that fit, one for each mark. -/
def Begins (ms : List Mark) (doc : List String) : Prop :=
  ∃ run after, doc = run ++ after ∧ List.Forall₂ Mark.Fits ms run

def StandsAt (doc : List String) (ms : List Mark) (i : Nat) : Prop := Begins ms (doc.drop i)

/-- The words to look for of which the last may be starred. -/
def marksOf (starred : Bool) : List String → List Mark
  | [] => []
  | [w] => [⟨w, starred⟩]
  | w :: ws => ⟨w, false⟩ :: marksOf starred ws

def Phrase.marks (p : Phrase) : List Mark := marksOf p.starred p.words

/-- The words of a query in which each follows the one before it without a gap. -/
def Query.marks? : Query → Option (List Mark)
  | .term w starred => some [⟨w, starred⟩]
  | .follow l r 1 => l.marks?.bind fun ms => r.marks?.map (ms ++ ·)
  | _ => none

section Marks

variable {starred starred' : Bool} {ws vs : List String} {ms ns : List Mark} {doc : List String}

theorem marksOf_cons (w : String) (hws : ws ≠ []) :
    marksOf starred (w :: ws) = ⟨w, false⟩ :: marksOf starred ws := by
  obtain ⟨v, vs, rfl⟩ := List.exists_cons_of_ne_nil hws
  rfl

theorem marksOf_append (ws : List String) (hvs : vs ≠ []) :
    marksOf starred (ws ++ vs) = marksOf false ws ++ marksOf starred vs := by
  induction ws with
  | nil => rfl
  | cons w ws ih =>
    rw [List.cons_append, marksOf_cons w (List.append_ne_nil_of_right_ne_nil ws hvs), ih]
    cases ws <;> rfl

theorem word_marksOf (starred : Bool) (ws : List String) :
    (marksOf starred ws).map Mark.word = ws := by
  fun_induction marksOf starred ws with
  | case1 => rfl
  | case2 w => rfl
  | case3 w ws hws ih => rw [List.map_cons, ih]

theorem length_marks (p : Phrase) : p.marks.length = p.words.length := by
  rw [← List.length_map Mark.word, Phrase.marks, word_marksOf]

/-- A star is seen wherever it stands. -/
theorem any_marksOf (starred : Bool) (hws : ws ≠ []) :
    (marksOf starred ws).any Mark.starred = starred := by
  fun_induction marksOf starred ws with
  | case1 => exact absurd rfl hws
  | case2 w => simp
  | case3 w ws hne ih => simp [ih hne]

theorem any_marksOf_false (ws : List String) : (marksOf false ws).any Mark.starred = false := by
  cases ws with
  | nil => rfl
  | cons w ws => exact any_marksOf false (List.cons_ne_nil w ws)

theorem marksOf_inj (hws : ws ≠ []) (h : marksOf starred ws = marksOf starred' vs) :
    starred = starred' ∧ ws = vs := by
  have hwords := congrArg (List.map Mark.word) h
  rw [word_marksOf, word_marksOf] at hwords
  subst hwords
  have hstarred := congrArg (List.any · Mark.starred) h
  simp only [any_marksOf _ hws] at hstarred
  exact ⟨hstarred, rfl⟩

/-- Words in front of others are not starred. -/
theorem marksOf_split (hns : ns ≠ []) (h : ms ++ ns = marksOf starred ws) :
    ∃ us vs, ws = us ++ vs ∧ vs ≠ [] ∧ ms = marksOf false us ∧ ns = marksOf starred vs := by
  induction ms generalizing ws with
  | nil =>
    refine ⟨[], ws, rfl, ?_, rfl, h⟩
    rintro rfl
    exact hns h
  | cons m ms ih =>
    match ws, h with
    | [w], h => simp [marksOf, hns] at h
    | w :: v :: ws, h =>
      obtain ⟨rfl, hrest⟩ := List.cons_eq_cons.mp h
      obtain ⟨us, vs, hws, hvs, rfl, rfl⟩ := ih hrest
      refine ⟨w :: us, vs, by rw [hws, List.cons_append], hvs, ?_, rfl⟩
      cases us <;> rfl

theorem begins_nil (doc : List String) : Begins [] doc := ⟨[], doc, rfl, .nil⟩

theorem not_begins (m : Mark) (ms : List Mark) : ¬Begins (m :: ms) [] := by
  rintro ⟨run, after, hdoc, hfits⟩
  obtain ⟨rfl, -⟩ := List.append_eq_nil_iff.mp hdoc.symm
  cases hfits

theorem begins_cons {m : Mark} {d : String} :
    Begins (m :: ms) (d :: doc) ↔ m.Fits d ∧ Begins ms doc := by
  constructor
  · rintro ⟨run, after, hdoc, hfits⟩
    cases hfits with
    | cons hd hrest =>
      obtain ⟨rfl, hsplit⟩ := List.cons_eq_cons.mp hdoc
      exact ⟨hd, _, after, hsplit, hrest⟩
  · rintro ⟨hd, run, after, rfl, hrest⟩
    exact ⟨d :: run, after, rfl, .cons hd hrest⟩

theorem begins_append : Begins (ms ++ ns) doc ↔ Begins ms doc ∧ Begins ns (doc.drop ms.length) := by
  induction ms generalizing doc with
  | nil => simp [begins_nil]
  | cons m ms ih =>
    cases doc with
    | nil => simp [not_begins]
    | cons d doc => rw [List.cons_append, begins_cons, begins_cons, ih, and_assoc]; rfl

/-- The index looks for the words of a phrase in the order that it has them in. -/
theorem startsAt_iff (starred : Bool) (ws doc : List String) :
    Phrase.startsAt ws starred doc ↔ Begins (marksOf starred ws) doc := by
  fun_induction marksOf starred ws generalizing doc with
  | case1 => exact iff_of_true (by cases doc <;> rfl) (begins_nil doc)
  | case2 w =>
    cases doc with
    | nil => exact iff_of_false (by simp [Phrase.startsAt]) (not_begins _ _)
    | cons d doc => cases starred <;> simp [Phrase.startsAt, begins_cons, begins_nil, Mark.Fits]
  | case3 w ws hne ih =>
    obtain ⟨v, vs, rfl⟩ := List.exists_cons_of_ne_nil hne
    cases doc with
    | nil => exact iff_of_false (by simp [Phrase.startsAt]) (not_begins _ _)
    | cons d doc =>
      rw [begins_cons, ← ih]
      simp [Phrase.startsAt, Mark.Fits]

theorem at_iff {p : Phrase} {i : Nat} : p.At doc i ↔ StandsAt doc p.marks i :=
  startsAt_iff p.starred p.words (doc.drop i)

theorem marks_ne_nil {p : Phrase} (h : p.words ≠ []) : p.marks ≠ [] := by
  rw [← List.length_pos_iff, length_marks]
  exact List.length_pos_iff.mpr h

/-- Nothing stands behind a star in a phrase. -/
theorem nil_of_star {p : Phrase} (hp : p.words ≠ []) (hstarred : p.starred = true)
    (h : p.marks ++ ns = marksOf starred ws) : ns = [] := by
  by_contra hns
  obtain ⟨us, vs, -, -, hus, -⟩ := marksOf_split hns h
  have hus' : marksOf p.starred p.words = marksOf false us := hus
  have hany := any_marksOf p.starred hp
  rw [hus', any_marksOf_false, hstarred] at hany
  cases hany

/-- The first star tells where the first phrase ends. -/
theorem parts_unique {p u : Phrase} (hp : p.words ≠ []) (hpstar : p.starred = true)
    (hu : u.words ≠ []) (hustar : u.starred = true) (h : p.marks ++ ms = u.marks ++ ns) :
    p = u ∧ ms = ns := by
  have hsame (hmarks : p.marks = u.marks) : p = u := by
    obtain ⟨-, hwords⟩ := marksOf_inj hp hmarks
    cases p
    cases u
    simp_all
  rcases List.append_eq_append_iff.mp h with ⟨rest, hmarks, rfl⟩ | ⟨rest, hmarks, rfl⟩
  · obtain rfl := nil_of_star hp hpstar hmarks.symm
    exact ⟨hsame (by simpa using hmarks.symm), rfl⟩
  · obtain rfl := nil_of_star hu hustar hmarks.symm
    exact ⟨hsame (by simpa using hmarks), rfl⟩

end Marks

namespace Query

variable {q l r : Query} {p p' : Phrase} {ms : List Mark} {t : MatchTree} {doc : List String}

theorem marks_follow {distance : Nat} : (follow l r distance).marks? = some ms ↔
    distance = 1 ∧ ∃ ls rs, l.marks? = some ls ∧ r.marks? = some rs ∧ ms = ls ++ rs := by
  match distance with
  | 1 =>
    rw [marks?]
    cases l.marks? <;> cases r.marks? <;> simp [eq_comm]
  | 0 => simp [marks?]
  | n + 2 => simp [marks?]

theorem marks_ne_nil (h : q.marks? = some ms) : ms ≠ [] := by
  induction q generalizing ms with
  | term w starred =>
    cases h
    simp
  | follow l r distance ihl ihr =>
    obtain ⟨-, ls, rs, hl, -, rfl⟩ := marks_follow.mp h
    simp [ihl hl]
  | _ => cases h

theorem marks_of_phrase (h : q.phrase? = some p) : q.marks? = some p.marks := by
  induction q generalizing p with
  | term w starred =>
    cases h
    rfl
  | follow l r distance ihl ihr =>
    obtain ⟨rfl, pl, pr, hl, hr, hstarred, rfl⟩ := phrase_follow.mp h
    refine marks_follow.mpr ⟨rfl, _, _, ihl hl, ihr hr, ?_⟩
    rw [Phrase.marks, marksOf_append _ (phrase_words hr), Phrase.marks, hstarred]
    rfl
  | _ => cases h

/-- However it is bracketed, a query whose last word alone may be starred is a phrase. -/
theorem phrase_of_marks {ws : List String} {starred : Bool}
    (h : q.marks? = some (marksOf starred ws)) : q.phrase? = some ⟨ws, starred⟩ := by
  induction q generalizing ws starred with
  | term w starred' =>
    have hone : marksOf starred' [w] = marksOf starred ws := Option.some.inj h
    obtain ⟨rfl, rfl⟩ := marksOf_inj (List.cons_ne_nil w []) hone
    rfl
  | follow l r distance ihl ihr =>
    obtain ⟨rfl, ls, rs, hl, hr, hall⟩ := marks_follow.mp h
    obtain ⟨us, vs, rfl, -, rfl, rfl⟩ := marksOf_split (marks_ne_nil hr) hall.symm
    exact phrase_follow.mpr ⟨rfl, _, _, ihl hl, ihr hr, rfl, rfl⟩
  | _ => cases h

/-- A star with words behind it ends the left part of the query. -/
theorem near_of_marks (hp : p.words ≠ []) (hstarred : p.starred = true) (hp' : p'.words ≠ [])
    (hmarks : q.marks? = some (p.marks ++ p'.marks)) {e : IndexExpr}
    (h : q.proximity? = some e) : e = .near p p' 0 := by
  rcases proximity_cases h with ⟨u, hu, rfl⟩ | ⟨l, r, distance, pl, pr, rfl, hnone, hl, hr, rfl⟩
  · have hall : p.marks ++ p'.marks = marksOf u.starred u.words :=
      Option.some.inj (hmarks.symm.trans (marks_of_phrase hu))
    exact absurd (nil_of_star hp hstarred hall) (FullText.marks_ne_nil hp')
  · obtain ⟨rfl, ls, rs, hls, hrs, hall⟩ := marks_follow.mp hmarks
    obtain rfl : pl.marks = ls := Option.some.inj ((marks_of_phrase hl).symm.trans hls)
    obtain rfl : pr.marks = rs := Option.some.inj ((marks_of_phrase hr).symm.trans hrs)
    have hlstar : pl.starred = true := by
      by_contra hplain
      have hone := phrase_follow.mpr ⟨rfl, pl, pr, hl, hr, by simpa using hplain, rfl⟩
      rw [hnone] at hone
      cases hone
    obtain ⟨rfl, hright⟩ := parts_unique hp hstarred (phrase_words hl) hlstar hall
    obtain ⟨hstar, hwords⟩ := marksOf_inj hp' hright
    cases p'
    cases pr
    simp_all

/-- A query of neighbours is one expression. -/
theorem proximity_of_marks (hmarks : q.marks? = some ms) (h : q.matchTree? = some t) :
    ∃ e, q.proximity? = some e ∧ t = .expr e := by
  cases q with
  | term w starred =>
    obtain ⟨e, he, rfl⟩ := Option.map_eq_some_iff.mp h
    exact ⟨e, he, rfl⟩
  | follow l r distance =>
    obtain ⟨e, he, rfl⟩ := Option.map_eq_some_iff.mp h
    exact ⟨e, he, rfl⟩
  | _ => cases hmarks

end Query

theorem IndexExpr.holds_near_iff {p p' : Phrase} (hp : p.words ≠ []) (hp' : p'.words ≠ [])
    {gap : Nat} {doc : List String} : (near p p' gap).holds doc ↔
      ∃ i j, p.At doc i ∧ p'.At doc j ∧ j ≤ i + p.words.length + gap ∧
        i ≤ j + p'.words.length + gap := by
  simp only [holds, nearIn, List.any_eq_true, Phrase.mem_starts hp, Phrase.mem_starts hp', within,
    Bool.and_eq_true, decide_eq_true_eq]
  constructor
  · rintro ⟨i, hi, j, hj, ⟨hleft, -⟩, hright, -⟩
    exact ⟨i, j, hi, hj, by omega, by omega⟩
  · rintro ⟨i, j, hi, hj, hleft, hright⟩
    exact ⟨i, hi, j, hj, ⟨by omega, by omega⟩, by omega, by omega⟩

/-- Two phrases that follow each other, in whatever way the query is bracketed. Where the first has
no star, the documents found are those in which its words stand directly in front of those of the
second. Where it has one, those are found too, but with them every document in which the two phrases
touch or overlap, the second in front as well. -/
theorem neighbours_found (language s : String) (q : Query) (t : MatchTree) (p p' : Phrase)
    (doc : List String) (hp : p.words ≠ []) (hp' : p'.words ≠ []) (hread : Query.read? s = some q)
    (hmarks : q.marks? = some (p.marks ++ p'.marks)) (h : compile language s = .ok t) :
    ((∃ i, StandsAt doc (p.marks ++ p'.marks) i) → t.holds doc) ∧
    (p.starred = false → (t.holds doc ↔ ∃ i, StandsAt doc (p.marks ++ p'.marks) i)) ∧
    (p.starred = true → (t.holds doc ↔ ∃ i j, StandsAt doc p.marks i ∧ StandsAt doc p'.marks j ∧
      j ≤ i + p.words.length ∧ i ≤ j + p'.words.length)) := by
  obtain ⟨-, htree⟩ := compile_ok_iff.mp h
  rw [hread, Option.bind_some] at htree
  obtain ⟨e, he, rfl⟩ := Query.proximity_of_marks hmarks htree
  rw [MatchTree.holds]
  cases hstarred : p.starred with
  | false =>
    have hall : p.marks ++ p'.marks = marksOf p'.starred (p.words ++ p'.words) := by
      rw [marksOf_append _ hp', Phrase.marks, hstarred]
      rfl
    have hphrase := Query.phrase_of_marks (hall ▸ hmarks)
    have hfound : e.holds doc ↔ ∃ i, StandsAt doc (p.marks ++ p'.marks) i := by
      rcases Query.proximity_cases he with ⟨u, hu, rfl⟩ | ⟨_, _, _, _, _, _, hnone, -⟩
      · obtain rfl : u = ⟨p.words ++ p'.words, p'.starred⟩ :=
          Option.some.inj (hu.symm.trans hphrase)
        rw [IndexExpr.holds_phrase (by simp [hp]), hall]
        exact exists_congr fun i => at_iff
      · rw [hphrase] at hnone
        cases hnone
    exact ⟨hfound.mpr, fun _ => hfound, fun hstar => absurd hstar (by simp)⟩
  | true =>
    obtain rfl := Query.near_of_marks hp hstarred hp' hmarks he
    have hfound : (IndexExpr.near p p' 0).holds doc ↔ _ := IndexExpr.holds_near_iff hp hp'
    simp only [at_iff, Nat.add_zero] at hfound
    refine ⟨?_, fun hplain => absurd hplain (by simp), fun _ => hfound⟩
    rintro ⟨i, hstands⟩
    obtain ⟨hleft, hright⟩ := begins_append.mp hstands
    rw [List.drop_drop, length_marks] at hright
    exact hfound.mpr ⟨i, i + p.words.length, hleft, hright, Nat.le_refl _, by omega⟩

/-- `red` in front of `fo*`, and `fo*` in front of `den`. -/
def redFo : Query := .follow (.term "red" false) (.term "fo" true) 1

def foDen : Query := .follow (.term "fo" true) (.term "den" false) 1

theorem read_redFo : Query.read? "red <-> fo:*" = some redFo := by decide +kernel

theorem read_foDen : Query.read? "fo:* <-> den" = some foDen := by decide +kernel

theorem compile_redFo : compile "simple" "red <-> fo:*" =
    .ok (.expr (.phrase ⟨["red", "fo"], true⟩)) :=
  compile_ok_iff.mpr ⟨by decide +kernel, by rw [read_redFo]; rfl⟩

theorem compile_foDen : compile "simple" "fo:* <-> den" =
    .ok (.expr (.near ⟨["fo"], true⟩ ⟨["den"], false⟩ 0)) :=
  compile_ok_iff.mpr ⟨by decide +kernel, by rw [read_foDen]; rfl⟩

/-- A red fox is found in that order only, a fox in front of a den the other way round too. -/
theorem neighbours_found_fox :
    (MatchTree.expr (.phrase ⟨["red", "fo"], true⟩)).holds ["red", "fox", "den"] ∧
      (¬∃ i, StandsAt ["fox", "red"] [⟨"red", false⟩, ⟨"fo", true⟩] i) ∧
      (MatchTree.expr (.near ⟨["fo"], true⟩ ⟨["den"], false⟩ 0)).holds ["den", "fox"] := by
  have hred (doc : List String) := neighbours_found "simple" "red <-> fo:*" redFo _ ⟨["red"], false⟩
    ⟨["fo"], true⟩ doc (by simp) (by simp) read_redFo rfl compile_redFo
  have hden := neighbours_found "simple" "fo:* <-> den" foDen _ ⟨["fo"], true⟩ ⟨["den"], false⟩
    ["den", "fox"] (by simp) (by simp) read_foDen rfl compile_foDen
  have hfox : Mark.Fits ⟨"fo", true⟩ "fox" := by decide
  have hfox' : StandsAt ["den", "fox"] [⟨"fo", true⟩] 1 := ⟨["fox"], [], rfl, .cons hfox .nil⟩
  have hden' : StandsAt ["den", "fox"] [⟨"den", false⟩] 0 := ⟨["den"], ["fox"], rfl, .cons rfl .nil⟩
  refine ⟨(hred _).1 ⟨0, ["red", "fox"], ["den"], rfl, .cons rfl (.cons hfox .nil)⟩, ?_, ?_⟩
  · exact mt ((hred ["fox", "red"]).2.1 rfl).mpr (by decide)
  · exact (hden.2.2 rfl).mpr ⟨1, 0, hfox', hden', by decide, by decide⟩

/-- The den stands in front of the fox, and is found for a fox in front of a den. -/
theorem reversed_found :
    foDen.marks? = some (Phrase.marks ⟨["fo"], true⟩ ++ Phrase.marks ⟨["den"], false⟩) ∧
      Query.read? "fo:* <-> den" = some foDen ∧
      (∃ t, compile "simple" "fo:* <-> den" = .ok t ∧ t.holds ["den", "fox"]) ∧
      ¬∃ i, StandsAt ["den", "fox"]
        (Phrase.marks ⟨["fo"], true⟩ ++ Phrase.marks ⟨["den"], false⟩) i := by
  refine ⟨rfl, read_foDen, ⟨_, compile_foDen, by decide⟩, ?_⟩
  rintro ⟨i, hstands⟩
  obtain ⟨hleft, hright⟩ := begins_append.mp hstands
  have hfo : Phrase.startsAt ["fo"] true (["den", "fox"].drop i) := at_iff.mpr hleft
  have hden : Phrase.At ["den", "fox"] ⟨["den"], false⟩ (i + 1) :=
    at_iff.mpr (by rwa [List.drop_drop] at hright)
  have hbound := Phrase.lt_of_at (by simp) hden
  have hzero : i = 0 := by
    simp only [List.length_cons, List.length_nil] at hbound
    omega
  rw [hzero] at hfo
  exact absurd hfo (by decide)

end Newsfeed.FullText
