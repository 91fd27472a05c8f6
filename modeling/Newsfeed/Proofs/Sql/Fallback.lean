import Newsfeed.Proofs.Search.Trial
import Newsfeed.Sql.Listing

/-!
Where statements fall back on the function that refuses a query when it is called: nowhere but at a
full-text query that the index cannot be asked.
-/

namespace Newsfeed.Sql

theorem mem_of_mem_intersperse {α : Type} {a separator : α} {l : List α}
    (h : a ∈ l.intersperse separator) : a = separator ∨ a ∈ l := by
  induction l with
  | nil => cases h
  | cons b l ih =>
    cases l with
    | nil => exact .inr h
    | cons c l =>
      simp only [List.intersperse_cons_cons, List.mem_cons] at h ⊢
      rcases h with rfl | rfl | h
      · exact .inr (.inl rfl)
      · exact .inl rfl
      · exact (ih h).imp_right fun h => .inr (List.mem_cons.mp h)

namespace Statement

/-- The statement does not fall back: it leaves no query to the function that refuses it. -/
def Direct (s : Statement) : Prop := Piece.text "ts_check(" ∉ s

theorem direct_nil : Direct [] := List.not_mem_nil

theorem direct_append {s t : Statement} : (s ++ t).Direct ↔ s.Direct ∧ t.Direct := by
  simp only [Direct, List.mem_append, not_or]

theorem direct_param {p : Param} {s : Statement} : Direct (.param p :: s) ↔ s.Direct := by
  simp [Direct]

theorem direct_text {text : String} {s : Statement} :
    Direct (.text text :: s) ↔ text ≠ "ts_check(" ∧ s.Direct := by
  simp [Direct, eq_comm]

theorem direct_joined {operator : String} {parts : List Statement}
    (hoperator : operator ≠ "ts_check(") (h : ∀ part ∈ parts, part.Direct) :
    (joined operator parts).Direct := by
  have hinner : Direct (parts.intersperse [.text operator]).flatten := by
    intro hmem
    obtain ⟨part, hpart, hmem⟩ := List.mem_flatten.mp hmem
    rcases mem_of_mem_intersperse hpart with rfl | hpart
    · exact hoperator (Piece.text.inj (List.mem_singleton.mp hmem)).symm
    · exact h part hpart hmem
  simp [joined, direct_append, direct_text, direct_nil, hinner]

end Statement

open Statement

theorem ne_call {text : String} (h : text.toList.head? ≠ some 't') : text ≠ "ts_check(" := by
  rintro rfl
  exact h rfl

theorem columnName_ne_call (column : Column) (rest : String) :
    columnName column ++ rest ≠ "ts_check(" := by
  cases column <;> exact ne_call (by simp [columnName])

mutual

theorem matchCondition_direct (t : FullText.MatchTree) : (matchCondition t).Direct := by
  cases t with
  | expr e => simp [matchCondition, direct_text, direct_param, direct_nil]
  | all parts =>
    rw [matchCondition]
    exact direct_joined (by simp) (matchConditions_direct parts)
  | any parts =>
    rw [matchCondition]
    exact direct_joined (by simp) (matchConditions_direct parts)
  | no part =>
    have hpart := matchCondition_direct part
    simp [matchCondition, direct_append, direct_text, direct_nil, hpart]

theorem matchConditions_direct (ts : List FullText.MatchTree) :
    ∀ s ∈ matchConditions ts, s.Direct := by
  intro s hs
  cases ts with
  | nil => cases hs
  | cons t ts =>
    rcases List.mem_cons.mp hs with rfl | hs
    · exact matchCondition_direct t
    · exact matchConditions_direct ts s hs

end

theorem fullTextCondition_direct {language query : String}
    (h : Accepted [(language, query)]) : (fullTextCondition language query).Direct := by
  obtain ⟨tree, htree⟩ := h _ (List.mem_singleton_self _)
  simp only [fullTextCondition, htree]
  exact matchCondition_direct tree

theorem listCondition_direct (column : Column) (values : List Int) :
    (listCondition column values).Direct := by
  have hvalues : Direct ((values.map fun n => Piece.param (.int n)).intersperse (.text ", ")) := by
    intro hmem
    rcases mem_of_mem_intersperse hmem with h | h
    · simp at h
    · obtain ⟨n, -, hn⟩ := List.mem_map.mp h
      cases hn
  unfold listCondition
  split
  · simp [direct_text, direct_nil]
  · simp [direct_append, direct_text, direct_nil, hvalues, columnName_ne_call]

mutual

/-- A condition falls back nowhere if all its full-text queries are accepted. -/
theorem condition_direct (p : Predicate) (h : Accepted p.fullTextTerms) : (condition p).Direct := by
  cases p with
  | conj parts =>
    rcases parts with _ | ⟨p, ps⟩
    · simp [condition, direct_text, direct_nil]
    · rw [condition]
      exact direct_joined (by simp) (conditions_direct (p :: ps) h)
  | disj parts =>
    rcases parts with _ | ⟨p, ps⟩
    · simp [condition, direct_text, direct_nil]
    · rw [condition]
      exact direct_joined (by simp) (conditions_direct (p :: ps) h)
  | no inner =>
    have hinner := condition_direct inner h
    simp [condition, direct_append, direct_text, direct_nil, hinner]
  | compare column op value =>
    rw [condition, String.append_assoc, String.append_assoc]
    simp [direct_text, direct_param, direct_nil, columnName_ne_call]
  | contains column needle =>
    have hcall : "unicode_lower(" ++ columnName column ++ ") LIKE " ≠ "ts_check(" :=
      ne_call (by simp)
    simp [condition, direct_text, direct_param, direct_nil, hcall]
  | startsWith column start =>
    have hcall : "SUBSTR(" ++ columnName column ++ ", 1, " ≠ "ts_check(" := ne_call (by simp)
    simp [condition, direct_text, direct_param, direct_nil, hcall]
  | inList column values =>
    rw [condition]
    exact listCondition_direct column values
  | fullText language query =>
    rw [condition]
    exact fullTextCondition_direct h
  | _ => simp [condition, direct_text, direct_param, direct_nil, columnName_ne_call]

theorem conditions_direct (ps : List Predicate) (h : Accepted (Predicate.termsOfAll ps)) :
    ∀ s ∈ conditions ps, s.Direct := by
  intro s hs
  cases ps with
  | nil => cases hs
  | cons p ps =>
    rw [Predicate.termsOfAll, accepted_append] at h
    rcases List.mem_cons.mp hs with rfl | hs
    · exact condition_direct p h.2
    · exact conditions_direct ps h.1 s hs

end

theorem ownedBy_direct (owner : Int) {filter : Predicate} (h : Accepted filter.fullTextTerms) :
    (ownedBy owner filter).Direct := by
  simp [ownedBy, direct_text, direct_param, condition_direct filter h]

theorem page_direct {q : ListingQuery} (h : Accepted q.filter.fullTextTerms) :
    (page q).Direct := by
  have hwindow : (pageWindow q.limit q.offset).Direct := by
    unfold pageWindow
    split
    · simp [direct_text, direct_param, direct_nil]
    · split <;> simp [direct_text, direct_param, direct_nil]
  have hrows : "SELECT " ++ (if q.distinct then "DISTINCT " else "") ++
      String.intercalate ", " (rowColumns q.includeContent) ++
      " FROM " ++ tables q.allowArchived ++ " WHERE " ≠ "ts_check(" := ne_call (by simp)
  have horder : " ORDER BY " ++ orderText q.order ≠ "ts_check(" := ne_call (by simp)
  simp only [page, direct_append, direct_text, ownedBy_direct q.owner h, hwindow]
  exact ⟨⟨⟨⟨hrows, direct_nil⟩, trivial⟩, horder, direct_nil⟩, trivial⟩

theorem firstId_direct {q : ListingQuery} {since : Time.Instant}
    (h : Accepted (q.recentFilter since).fullTextTerms) : (firstId q since).Direct := by
  have hrows : "SELECT e.id FROM " ++ tables q.allowArchived ++ " WHERE " ≠ "ts_check(" :=
    ne_call (by simp)
  have horder : " ORDER BY " ++ orderText q.order ++ " LIMIT 1" ≠ "ts_check(" := ne_call (by simp)
  simp only [firstId, direct_append, direct_text, ownedBy_direct q.owner h]
  exact ⟨⟨⟨hrows, direct_nil⟩, trivial⟩, horder, direct_nil⟩

theorem count_direct (owner : Int) (allowArchived : Bool) {filter : Predicate}
    (h : Accepted filter.fullTextTerms) : (count owner allowArchived filter).Direct := by
  have hrows : "SELECT COUNT(DISTINCT ue.int_id) FROM " ++ tables allowArchived ++ " WHERE " ≠
      "ts_check(" := ne_call (by simp)
  simp only [count, direct_append, direct_text, ownedBy_direct owner h]
  exact ⟨⟨hrows, direct_nil⟩, trivial⟩

theorem trial_direct (owner : Int) {filter : Predicate} (h : Accepted filter.fullTextTerms) :
    (trial owner filter).Direct := by
  have hrows : "SELECT 1 FROM " ++ tables true ++ " WHERE " ≠ "ts_check(" := ne_call (by simp)
  simp only [trial, direct_append, direct_text, ownedBy_direct owner h]
  exact ⟨⟨⟨hrows, direct_nil⟩, trivial⟩, by simp, direct_nil⟩

end Newsfeed.Sql
