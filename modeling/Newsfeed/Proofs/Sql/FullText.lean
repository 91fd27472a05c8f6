import Mathlib.Data.List.Chain
import Newsfeed.Proofs.FullText.Spelling
import Newsfeed.Proofs.Predicate.Atoms
import Newsfeed.Proofs.Predicate.Places
import Newsfeed.Proofs.Sql.Fallback

/-!
Statements show whether a filter has full-text parts. Each of them is asked of the index or left to
the function that refuses it, and nothing else in a filter is written like either.
-/

namespace Newsfeed.Sql

open FullText Statement

/-! ### The texts of a condition -/

/-- What stands around the parts of a filter and between them. -/
def joinery : List String := ["1", "0", "(", ")", "NOT (", " AND ", " OR "]

theorem text_single {words other : String} (h : .text words ∈ [Piece.text other])
    (hother : other ∈ joinery) : words ∈ joinery := by
  rwa [Piece.text.inj (List.mem_singleton.mp h)]

section Joined

variable {operator words : String} {part : Statement} {parts : List Statement}

theorem mem_intersperse_of_mem {α : Type} {a separator : α} {l : List α} (h : a ∈ l) :
    a ∈ l.intersperse separator := by
  induction l with
  | nil => cases h
  | cons b l ih =>
    cases l with
    | nil => exact h
    | cons c l =>
      rw [List.intersperse_cons_cons]
      rcases List.mem_cons.mp h with rfl | h
      · exact List.mem_cons_self
      · exact List.mem_cons_of_mem _ (List.mem_cons_of_mem _ (ih h))

theorem subset_joined (h : part ∈ parts) : part ⊆ joined operator parts := fun _ hpiece =>
  List.mem_append_left _ (List.mem_append_right _
    (List.mem_flatten.mpr ⟨part, mem_intersperse_of_mem h, hpiece⟩))

theorem text_joined (hoperator : operator ∈ joinery)
    (h : .text words ∈ joined operator parts) :
    words ∈ joinery ∨ ∃ part ∈ parts, .text words ∈ part := by
  rcases List.mem_append.mp h with h | h
  · rcases List.mem_append.mp h with h | h
    · exact .inl (text_single h (by decide))
    · obtain ⟨part, hpart, hwords⟩ := List.mem_flatten.mp h
      rcases mem_of_mem_intersperse hpart with rfl | hpart
      · exact .inl (text_single hwords hoperator)
      · exact .inr ⟨part, hpart, hwords⟩
  · exact .inl (text_single h (by decide))

end Joined

mutual

/-- What is written for an atom stands in the condition of the filter. -/
theorem condition_subset (p : Predicate) : ∀ a ∈ p.atoms, condition a ⊆ condition p := by
  intro a ha
  cases p with
  | conj parts =>
    obtain ⟨s, hs, hsubset⟩ := conditions_subset parts a ha
    cases parts with
    | nil => cases hs
    | cons p ps => exact List.Subset.trans hsubset (subset_joined hs)
  | disj parts =>
    obtain ⟨s, hs, hsubset⟩ := conditions_subset parts a ha
    cases parts with
    | nil => cases hs
    | cons p ps => exact List.Subset.trans hsubset (subset_joined hs)
  | no inner =>
    refine List.Subset.trans (condition_subset inner a ha) fun piece hpiece => ?_
    exact List.mem_append_left _ (List.mem_append_right _ hpiece)
  | _ =>
    rw [List.mem_singleton.mp ha]
    exact List.Subset.refl _

theorem conditions_subset (ps : List Predicate) :
    ∀ a ∈ Predicate.atomsOfAll ps, ∃ s ∈ conditions ps, condition a ⊆ s := by
  intro a ha
  cases ps with
  | nil => cases ha
  | cons p ps =>
    rcases List.mem_append.mp ha with ha | ha
    · exact ⟨_, List.mem_cons_self, condition_subset p a ha⟩
    · obtain ⟨s, hs, hsubset⟩ := conditions_subset ps a ha
      exact ⟨s, List.mem_cons_of_mem _ hs, hsubset⟩

end

mutual

/-- There are no other texts in it than those of the atoms and what holds them together. -/
theorem text_condition (p : Predicate) {words : String} (h : .text words ∈ condition p) :
    words ∈ joinery ∨ ∃ a ∈ p.atoms, .text words ∈ condition a := by
  cases p with
  | conj parts =>
    cases parts with
    | nil => exact .inl (text_single h (by decide))
    | cons p ps =>
      rcases text_joined (by decide) h with hjoin | ⟨s, hs, hwords⟩
      · exact .inl hjoin
      · exact text_conditions (p :: ps) hs hwords
  | disj parts =>
    cases parts with
    | nil => exact .inl (text_single h (by decide))
    | cons p ps =>
      rcases text_joined (by decide) h with hjoin | ⟨s, hs, hwords⟩
      · exact .inl hjoin
      · exact text_conditions (p :: ps) hs hwords
  | no inner =>
    rcases List.mem_append.mp h with h | h
    · rcases List.mem_append.mp h with h | h
      · exact .inl (text_single h (by decide))
      · exact text_condition inner h
    · exact .inl (text_single h (by decide))
  | _ => exact .inr ⟨_, List.mem_singleton_self _, h⟩

theorem text_conditions (ps : List Predicate) {words : String} {s : Statement}
    (hs : s ∈ conditions ps) (h : .text words ∈ s) :
    words ∈ joinery ∨ ∃ a ∈ Predicate.atomsOfAll ps, .text words ∈ condition a := by
  cases ps with
  | nil => cases hs
  | cons p ps =>
    rcases List.mem_cons.mp hs with rfl | hs
    · exact (text_condition p h).imp_right fun ⟨a, ha, hwords⟩ =>
        ⟨a, List.mem_append_left _ ha, hwords⟩
    · exact (text_conditions ps hs h).imp_right fun ⟨a, ha, hwords⟩ =>
        ⟨a, List.mem_append_right _ ha, hwords⟩

end

/-! ### Full-text parts -/

/-- Before the question that the index is asked. -/
def indexText : String := "e.id IN (SELECT rowid FROM entries_fts WHERE entries_fts MATCH "

mutual

theorem asks_matchCondition (t : MatchTree) (h : t.Askable) :
    .text indexText ∈ matchCondition t := by
  cases t with
  | expr e => exact List.mem_cons_self
  | all parts =>
    obtain ⟨s, hs, hasks⟩ := asks_matchConditions parts h.1 h.2
    exact subset_joined hs hasks
  | any parts =>
    obtain ⟨s, hs, hasks⟩ := asks_matchConditions parts h.1 h.2
    exact subset_joined hs hasks
  | no part =>
    exact List.mem_append_left _ (List.mem_append_right _ (asks_matchCondition part h))

theorem asks_matchConditions (ts : List MatchTree) (hne : ts ≠ []) (h : MatchTree.AllAskable ts) :
    ∃ s ∈ matchConditions ts, .text indexText ∈ s := by
  cases ts with
  | nil => exact absurd rfl hne
  | cons t ts => exact ⟨_, List.mem_cons_self, asks_matchCondition t h.1⟩

end

theorem text_fullText (language query : String) :
    .text indexText ∈ fullTextCondition language query ∨
      .text "ts_check(" ∈ fullTextCondition language query := by
  unfold fullTextCondition
  split
  case h_1 tree htree => exact .inl (asks_matchCondition tree (askable_compile htree))
  case h_2 => exact .inr List.mem_cons_self

/-! ### The text of a statement -/

/-- The words stand in the text of the statement. -/
def Statement.Mentions (s : Statement) (words : String) : Prop :=
  words.toList <:+: s.sql.toList

theorem mentions_of_text {s : Statement} {words text : String} (h : .text text ∈ s)
    (hwords : words.toList <:+: text.toList) : s.Mentions words := by
  have htext : text ∈ s.map Piece.sql := List.mem_map.mpr ⟨_, h, rfl⟩
  rw [Mentions, Statement.sql, String.toList_join]
  exact hwords.trans (List.infix_of_mem_flatten (List.mem_map_of_mem htext))

/-- No `M` is followed by an `A` and no `c` by a `k`, whatever comes next. -/
def Quiet (cs : List Char) : Prop :=
  cs.IsChain (fun c d => ¬(c = 'M' ∧ d = 'A') ∧ ¬(c = 'c' ∧ d = 'k')) ∧
    cs.getLast? ≠ some 'M' ∧ cs.getLast? ≠ some 'c'

instance (cs : List Char) : Decidable (Quiet cs) := inferInstanceAs (Decidable (_ ∧ _))

theorem Quiet.append {cs ds : List Char} (hcs : Quiet cs) (hds : Quiet ds) : Quiet (cs ++ ds) := by
  obtain ⟨hchain, hM, hc⟩ := hcs
  refine ⟨hchain.append hds.1 fun x hx y _ => ⟨fun h => hM (h.1 ▸ hx), fun h => hc (h.1 ▸ hx)⟩, ?_⟩
  rcases List.eq_nil_or_concat' ds with rfl | ⟨front, d, rfl⟩
  · rw [List.append_nil]
    exact ⟨hM, hc⟩
  · rw [List.getLast?_append_of_ne_nil _ (by simp)]
    exact hds.2

theorem quiet_sql {s : Statement} (h : ∀ words, .text words ∈ s → Quiet words.toList) :
    Quiet s.sql.toList := by
  rw [Statement.sql, String.toList_join]
  induction s with
  | nil => decide
  | cons piece s ih =>
    rw [List.map_cons, List.flatMap_cons]
    refine Quiet.append ?_ (ih fun words hwords => h words (List.mem_cons_of_mem _ hwords))
    cases piece with
    | text words => exact h words List.mem_cons_self
    | param p =>
      rw [Piece.sql]
      decide

theorem not_mentions_of_quiet {s : Statement} (h : Quiet s.sql.toList) :
    ¬s.Mentions "MATCH" ∧ ¬s.Mentions "ts_check(" := by
  constructor
  · rintro ⟨front, back, hsql⟩
    rw [← hsql] at h
    exact absurd h.1.left_of_append.right_of_append (by decide)
  · rintro ⟨front, back, hsql⟩
    rw [← hsql] at h
    exact absurd h.1.left_of_append.right_of_append (by decide)

theorem quiet_joinery : ∀ words ∈ joinery, Quiet words.toList := by decide

theorem quiet_column (column : Column) : Quiet (columnName column).toList := by
  cases column <;> decide

theorem quiet_sign (op : Comparison) : Quiet (comparisonSign op).toList := by
  cases op <;> decide

theorem quiet_concat {s t : String} (hs : Quiet s.toList) (ht : Quiet t.toList) :
    Quiet (s ++ t).toList := String.toList_append ▸ hs.append ht

theorem quiet_list {column : Column} {values : List Int} {words : String}
    (h : .text words ∈ listCondition column values) : Quiet words.toList := by
  unfold listCondition at h
  split at h
  · rw [Piece.text.inj (List.mem_singleton.mp h)]
    decide
  · rcases List.mem_append.mp h with h | h
    · rcases List.mem_append.mp h with h | h
      · rw [Piece.text.inj (List.mem_singleton.mp h)]
        exact quiet_concat (quiet_column column) (by decide)
      · rcases mem_of_mem_intersperse h with h | h
        · rw [Piece.text.inj h]
          decide
        · obtain ⟨n, -, hn⟩ := List.mem_map.mp h
          cases hn
    · rw [Piece.text.inj (List.mem_singleton.mp h)]
      decide

theorem quiet_atom {a : Predicate} (hatom : a.IsAtom)
    (hplain : ∀ language query, a ≠ .fullText language query) {words : String}
    (h : .text words ∈ condition a) : Quiet words.toList := by
  cases a with
  | conj parts => exact hatom.elim
  | disj parts => exact hatom.elim
  | no inner => exact hatom.elim
  | fullText language query => exact absurd rfl (hplain language query)
  | inList column values => exact quiet_list h
  | compare column op value =>
    simp only [condition, List.mem_cons, Piece.text.injEq, List.not_mem_nil, reduceCtorEq,
      or_false] at h
    rw [h]
    exact quiet_concat (quiet_concat (quiet_concat (quiet_column column) (by decide))
      (quiet_sign op)) (by decide)
  | isNull column | notNull column =>
    rw [Piece.text.inj (List.mem_singleton.mp h)]
    exact quiet_concat (quiet_column column) (by decide)
  | contains column part | startsWith column part =>
    simp only [condition, List.mem_cons, Piece.text.injEq, List.not_mem_nil, reduceCtorEq,
      or_false, false_or] at h
    rcases h with rfl | rfl
    · exact quiet_concat (quiet_concat (by decide) (quiet_column column)) (by decide)
    · decide
  | always | never =>
    rw [Piece.text.inj (List.mem_singleton.mp h)]
    decide
  | label id | labelOf owner =>
    simp only [condition, List.mem_cons, Piece.text.injEq, List.not_mem_nil, reduceCtorEq,
      or_false, false_or] at h
    rcases h with rfl | rfl <;> decide +kernel
  | tag owner name =>
    simp only [condition, List.mem_cons, Piece.text.injEq, List.not_mem_nil, reduceCtorEq,
      or_false, false_or] at h
    rcases h with rfl | rfl | rfl <;> decide +kernel

theorem match_in_indexText : "MATCH".toList <:+: indexText.toList :=
  ⟨"e.id IN (SELECT rowid FROM entries_fts WHERE entries_fts ".toList, [' '], by decide +kernel⟩

/-- The text shows whether the filter has full-text parts. -/
theorem no_terms_iff (p : Predicate) : p.fullTextTerms = [] ↔
    ¬(condition p).Mentions "MATCH" ∧ ¬(condition p).Mentions "ts_check(" := by
  constructor
  · intro hnone
    refine not_mentions_of_quiet (quiet_sql fun words hwords => ?_)
    rcases text_condition p hwords with hjoin | ⟨a, ha, hatom⟩
    · exact quiet_joinery words hjoin
    · refine quiet_atom (Predicate.isAtom_of_mem p a ha) ?_ hatom
      rintro language query rfl
      have hterm := (Predicate.mem_fullTextTerms p language query).mpr ha
      rw [hnone] at hterm
      cases hterm
  · rintro ⟨hindex, hrefused⟩
    refine List.eq_nil_iff_forall_not_mem.mpr fun ⟨language, query⟩ hterm => ?_
    have hsubset := condition_subset p _ ((Predicate.mem_fullTextTerms p language query).mp hterm)
    rcases text_fullText language query with htext | htext
    · exact hindex (mentions_of_text (hsubset htext) match_in_indexText)
    · exact hrefused (mentions_of_text (hsubset htext) (List.infix_refl _))

end Newsfeed.Sql

namespace Newsfeed.Predicate

/-- A walk with a stack comes to an end in one step for each part of the filter. It has then found
the full-text parts, each place once and later parts before earlier ones; there are none exactly if
the condition has no text of either kind that is written for them. -/
theorem full_text_parts_are_walked (p : Predicate) :
    Walk.step^[p.partCount] ⟨[p], []⟩ = ⟨[], p.fullTextTerms⟩ ∧
    (∃ placed : List (List Nat × String × String),
      placed.map Prod.snd = p.fullTextTerms ∧
      placed.Pairwise (fun e f => List.Lex (· > ·) e.1 f.1) ∧
      ∀ place language query, (place, language, query) ∈ placed ↔
        p.at? place = some (fullText language query)) ∧
    (p.fullTextTerms = [] ↔
      ¬(Sql.condition p).Mentions "MATCH" ∧ ¬(Sql.condition p).Mentions "ts_check(") :=
  ⟨Walk.steps_partCount p [] [],
    ⟨p.placed, terms_placed p, placed_ordered p, fun place _ _ => mem_placed p place⟩,
    Sql.no_terms_iff p⟩

example : (conj [fullText "simple" "red", no (disj [fullText "english" "fox", always,
    fullText "english" "den"])]).fullTextTerms =
      [("english", "den"), ("english", "fox"), ("simple", "red")] := rfl

end Newsfeed.Predicate
