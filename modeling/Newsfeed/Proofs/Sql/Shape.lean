import Newsfeed.Proofs.Sql.Fallback
import Newsfeed.Proofs.Text.Spaced

/-!
The text of a statement depends on the shape of what is asked and not on the values in it. Two
filters of one shape are written in the same words, and there are as many question marks in these as
values are handed over.
-/

namespace Newsfeed

open Newsfeed.Text Newsfeed.Time

namespace FullText

mutual

/-- The trees differ in nothing but what the index is asked. -/
inductive MatchTree.SameShape : MatchTree → MatchTree → Prop
  | expr (e f : IndexExpr) : SameShape (.expr e) (.expr f)
  | all {ts us : List MatchTree} (h : SameShapes ts us) : SameShape (.all ts) (.all us)
  | any {ts us : List MatchTree} (h : SameShapes ts us) : SameShape (.any ts) (.any us)
  | no {t u : MatchTree} (h : SameShape t u) : SameShape (.no t) (.no u)

inductive MatchTree.SameShapes : List MatchTree → List MatchTree → Prop
  | nil : SameShapes [] []
  | cons {t u : MatchTree} {ts us : List MatchTree} (h : SameShape t u) (hs : SameShapes ts us) :
      SameShapes (t :: ts) (u :: us)

end

/-- The queries give trees of one shape, or are both refused. -/
inductive SameOutcome : Except QueryError MatchTree → Except QueryError MatchTree → Prop
  | ok {t u : MatchTree} (h : t.SameShape u) : SameOutcome (.ok t) (.ok u)
  | error (e f : QueryError) : SameOutcome (.error e) (.error f)

end FullText

namespace Predicate

mutual

/-- The filters differ in nothing but the values in them. -/
inductive SameShape : Predicate → Predicate → Prop
  | always : SameShape .always .always
  | never : SameShape .never .never
  | conj {ps qs : List Predicate} (h : SameShapes ps qs) : SameShape (.conj ps) (.conj qs)
  | disj {ps qs : List Predicate} (h : SameShapes ps qs) : SameShape (.disj ps) (.disj qs)
  | no {p q : Predicate} (h : SameShape p q) : SameShape (.no p) (.no q)
  | compare (column : Column) (op : Comparison) (v w : Value) :
      SameShape (.compare column op v) (.compare column op w)
  | isNull (column : Column) : SameShape (.isNull column) (.isNull column)
  | notNull (column : Column) : SameShape (.notNull column) (.notNull column)
  | contains (column : Column) (s t : String) :
      SameShape (.contains column s) (.contains column t)
  | inList (column : Column) {ns ms : List Int} (h : ns.length = ms.length) :
      SameShape (.inList column ns) (.inList column ms)
  | startsWith (column : Column) (s t : String) :
      SameShape (.startsWith column s) (.startsWith column t)
  | label (n m : Int) : SameShape (.label n) (.label m)
  | labelOf (n m : Int) : SameShape (.labelOf n) (.labelOf m)
  | tag (n m : Int) (s t : String) : SameShape (.tag n s) (.tag m t)
  | fullText {l m q r : String}
      (h : FullText.SameOutcome (FullText.compile l q) (FullText.compile m r)) :
      SameShape (.fullText l q) (.fullText m r)

inductive SameShapes : List Predicate → List Predicate → Prop
  | nil : SameShapes [] []
  | cons {p q : Predicate} {ps qs : List Predicate} (h : SameShape p q) (hs : SameShapes ps qs) :
      SameShapes (p :: ps) (q :: qs)

end

theorem SameShapes.append {ps qs rs ts : List Predicate} (h : SameShapes ps qs)
    (hrest : SameShapes rs ts) : SameShapes (ps ++ rs) (qs ++ ts) := by
  induction ps generalizing qs with
  | nil =>
    cases h
    exact hrest
  | cons p ps ih =>
    cases h with
    | cons h hs => exact .cons h (ih hs)

/-- What is left of the parts of two conjunctions. -/
inductive SameParts : Option (List Predicate) → Option (List Predicate) → Prop
  | none : SameParts none none
  | some {ps qs : List Predicate} (h : SameShapes ps qs) : SameParts (some ps) (some qs)

theorem SameParts.after {ps qs : List Predicate} {rs ts : Option (List Predicate)}
    (h : SameShapes ps qs) (hrest : SameParts rs ts) :
    SameParts (rs.map (ps ++ ·)) (ts.map (qs ++ ·)) := by
  cases hrest with
  | none => exact .none
  | some hrest => exact .some (h.append hrest)

theorem conjuncts_sameParts {ps qs : List Predicate} (h : SameShapes ps qs) :
    SameParts (conjuncts? ps) (conjuncts? qs) := by
  induction ps generalizing qs with
  | nil =>
    cases h
    exact .some .nil
  | cons p ps ih =>
    cases h with
    | cons h hs =>
      have hrest := ih hs
      cases h with
      | always => exact hrest
      | never => exact .none
      | conj h => exact hrest.after h
      | no h => exact hrest.after (.cons (.no h) .nil)
      | disj h => exact hrest.after (.cons (.disj h) .nil)
      | inList column h => exact hrest.after (.cons (.inList column h) .nil)
      | fullText h => exact hrest.after (.cons (.fullText h) .nil)
      | _ => exact hrest.after (.cons (by constructor) .nil)

theorem sameShape_all {ps qs : List Predicate} (h : SameShapes ps qs) :
    SameShape (all ps) (all qs) := by
  have hparts := conjuncts_sameParts h
  unfold all
  cases hps : conjuncts? ps <;> cases hqs : conjuncts? qs <;> rw [hps, hqs] at hparts <;>
    cases hparts
  · exact .never
  · rename_i kept others hkept
    cases hkept with
    | nil => exact .always
    | cons h hs =>
      cases hs with
      | nil => exact h
      | cons h' hs => exact .conj (.cons h (.cons h' hs))

end Predicate

/-- The queries read the same columns of the same tables in the same order, and their filters differ
in nothing but values. An offset by itself is written only if rows are left out. -/
structure ListingQuery.SameShape (q r : ListingQuery) : Prop where
  tables : q.allowArchived = r.allowArchived
  filter : q.filter.SameShape r.filter
  order : q.order = r.order
  distinct : q.distinct = r.distinct
  content : q.includeContent = r.includeContent
  limit : q.limit.isSome = r.limit.isSome
  offset : q.limit = none → (0 < q.offset ↔ 0 < r.offset)

theorem ListingQuery.SameShape.recent {q r : ListingQuery} (h : q.SameShape r) (t u : Instant) :
    (q.recentFilter t).SameShape (r.recentFilter u) :=
  Predicate.sameShape_all (.cons (.compare .dateEntered .ge _ _) (.cons h.filter .nil))

namespace Sql

/-- The statements have the same text in every piece. -/
def SameText (s t : Statement) : Prop := s.map Piece.sql = t.map Piece.sql

namespace SameText

variable {s t : Statement}

theorem sql_eq (h : SameText s t) : s.sql = t.sql := congrArg String.join h

theorem refl (s : Statement) : SameText s s := rfl

theorem append {s' t' : Statement} (h : SameText s t) (h' : SameText s' t') :
    SameText (s ++ s') (t ++ t') := by
  have happend : s.map Piece.sql ++ s'.map Piece.sql = t.map Piece.sql ++ t'.map Piece.sql :=
    congrArg₂ _ h h'
  simpa only [SameText, List.map_append] using happend

theorem param (p q : Param) (h : SameText s t) : SameText (.param p :: s) (.param q :: t) :=
  congrArg (List.cons "?") h

theorem text (words : String) (h : SameText s t) :
    SameText (.text words :: s) (.text words :: t) :=
  congrArg (List.cons words) h

theorem joined {operator : String} {parts others : List Statement}
    (h : List.Forall₂ SameText parts others) :
    SameText (Statement.joined operator parts) (Statement.joined operator others) := by
  have hinner : SameText (parts.intersperse [.text operator]).flatten
      (others.intersperse [.text operator]).flatten := by
    induction h with
    | nil => rfl
    | cons hpart hparts ih =>
      cases hparts with
      | nil => exact hpart.append (refl [])
      | cons hnext hrest => exact hpart.append (.text operator ih)
  exact .text "(" (hinner.append (refl _))

end SameText

mutual

theorem matchCondition_sameText {t u : FullText.MatchTree} (h : t.SameShape u) :
    SameText (matchCondition t) (matchCondition u) := by
  cases h with
  | expr e f =>
    rw [matchCondition, matchCondition]
    exact .text _ (.param _ _ (.refl _))
  | all h =>
    rw [matchCondition, matchCondition]
    exact .joined (matchConditions_sameText h)
  | any h =>
    rw [matchCondition, matchCondition]
    exact .joined (matchConditions_sameText h)
  | no h =>
    rw [matchCondition, matchCondition]
    exact .text _ ((matchCondition_sameText h).append (.refl _))

theorem matchConditions_sameText {ts us : List FullText.MatchTree}
    (h : FullText.MatchTree.SameShapes ts us) :
    List.Forall₂ SameText (matchConditions ts) (matchConditions us) := by
  cases h with
  | nil => exact .nil
  | cons h hs => exact .cons (matchCondition_sameText h) (matchConditions_sameText hs)

end

theorem fullTextCondition_sameText {l m q r : String}
    (h : FullText.SameOutcome (FullText.compile l q) (FullText.compile m r)) :
    SameText (fullTextCondition l q) (fullTextCondition m r) := by
  unfold fullTextCondition
  cases hq : FullText.compile l q <;> cases hr : FullText.compile m r <;> rw [hq, hr] at h <;>
    cases h
  · exact .text _ (.param _ _ (.text _ (.param _ _ (.refl _))))
  · rename_i t u h
    exact matchCondition_sameText h

theorem listCondition_sameText (column : Column) {ns ms : List Int} (h : ns.length = ms.length) :
    SameText (listCondition column ns) (listCondition column ms) := by
  have hvalues : SameText ((ns.map fun n => Piece.param (.int n)).intersperse (.text ", "))
      ((ms.map fun n => Piece.param (.int n)).intersperse (.text ", ")) := by
    induction ns generalizing ms with
    | nil =>
      rw [List.length_eq_zero_iff.mp h.symm]
      rfl
    | cons n ns ih =>
      obtain ⟨m, ms, rfl⟩ := List.exists_cons_of_length_eq_add_one h.symm
      have hrest := ih (Nat.succ.inj h)
      cases ns <;> cases ms
      · rfl
      · cases h
      · cases h
      · exact .param _ _ (.text _ hrest)
  have hempty : ns = [] ↔ ms = [] := by
    rw [← List.length_eq_zero_iff, h, List.length_eq_zero_iff]
  unfold listCondition
  by_cases hms : ms = []
  · rw [if_pos (hempty.mpr hms), if_pos hms]
    rfl
  · rw [if_neg (mt hempty.mp hms), if_neg hms]
    exact ((SameText.refl _).append hvalues).append (.refl _)

mutual

theorem condition_sameText {p q : Predicate} (h : p.SameShape q) :
    SameText (condition p) (condition q) := by
  cases h with
  | conj h =>
    cases h with
    | nil => rfl
    | cons h hs =>
      rw [condition, condition]
      exact .joined (.cons (condition_sameText h) (conditions_sameText hs))
  | disj h =>
    cases h with
    | nil => rfl
    | cons h hs =>
      rw [condition, condition]
      exact .joined (.cons (condition_sameText h) (conditions_sameText hs))
  | no h =>
    rw [condition, condition]
    exact .text _ ((condition_sameText h).append (.refl _))
  | inList column h =>
    rw [condition, condition]
    exact listCondition_sameText column h
  | fullText h =>
    rw [condition, condition]
    exact fullTextCondition_sameText h
  | _ =>
    simp only [condition]
    rfl

theorem conditions_sameText {ps qs : List Predicate} (h : Predicate.SameShapes ps qs) :
    List.Forall₂ SameText (conditions ps) (conditions qs) := by
  cases h with
  | nil => exact .nil
  | cons h hs => exact .cons (condition_sameText h) (conditions_sameText hs)

end

theorem ownedBy_sameText (n m : Int) {p q : Predicate} (h : p.SameShape q) :
    SameText (ownedBy n p) (ownedBy m q) :=
  .text _ (.param _ _ (.text _ (condition_sameText h)))

theorem pageWindow_sameText {q r : ListingQuery} (h : q.SameShape r) :
    SameText (pageWindow q.limit q.offset) (pageWindow r.limit r.offset) := by
  have hlimit := h.limit
  have hoffset := h.offset
  cases hq : q.limit <;> cases hr : r.limit <;> rw [hq, hr] at hlimit
  · simp only [pageWindow, hoffset hq]
    split <;> rfl
  · cases hlimit
  · cases hlimit
  · rfl

theorem page_sameText {q r : ListingQuery} (h : q.SameShape r) : SameText (page q) (page r) := by
  unfold page
  rw [h.tables, h.order, h.distinct, h.content]
  have howned := ownedBy_sameText q.owner r.owner h.filter
  exact (((SameText.refl _).append howned).append (.refl _)).append (pageWindow_sameText h)

theorem firstId_sameText {q r : ListingQuery} (h : q.SameShape r) (t u : Instant) :
    SameText (firstId q t) (firstId r u) := by
  unfold firstId
  rw [h.tables, h.order]
  have howned := ownedBy_sameText q.owner r.owner (h.recent t u)
  exact ((SameText.refl _).append howned).append (.refl _)

theorem count_sameText (n m : Int) (allowArchived : Bool) {p q : Predicate} (h : p.SameShape q) :
    SameText (count n allowArchived p) (count m allowArchived q) :=
  .text _ (ownedBy_sameText n m h)

theorem trial_sameText (n m : Int) {p q : Predicate} (h : p.SameShape q) :
    SameText (trial n p) (trial m q) :=
  .text _ ((ownedBy_sameText n m h).append (.refl _))

/-! ### Places of values -/

/-- No text of the statement holds a question mark. -/
def Unmarked (s : Statement) : Prop := ∀ words, .text words ∈ s → '?' ∉ words.toList

theorem unmarked_nil : Unmarked [] := by
  intro words h
  cases h

theorem unmarked_append {s t : Statement} : Unmarked (s ++ t) ↔ Unmarked s ∧ Unmarked t := by
  simp only [Unmarked, List.mem_append, or_imp, forall_and]

theorem unmarked_param {p : Param} {s : Statement} : Unmarked (.param p :: s) ↔ Unmarked s := by
  simp [Unmarked]

theorem unmarked_text {words : String} {s : Statement} :
    Unmarked (.text words :: s) ↔ '?' ∉ words.toList ∧ Unmarked s := by
  simp [Unmarked]

theorem unmarked_joined {operator : String} {parts : List Statement}
    (hoperator : '?' ∉ operator.toList) (h : ∀ part ∈ parts, Unmarked part) :
    Unmarked (Statement.joined operator parts) := by
  have hinner : Unmarked (parts.intersperse [.text operator]).flatten := by
    intro words hmem
    obtain ⟨part, hpart, hwords⟩ := List.mem_flatten.mp hmem
    rcases mem_of_mem_intersperse hpart with rfl | hpart
    · rw [Piece.text.inj (List.mem_singleton.mp hwords)]
      exact hoperator
    · exact h part hpart words hwords
  simp [Statement.joined, unmarked_append, unmarked_text, unmarked_nil, hinner]

/-- There are as many question marks in the text as values beside it. -/
theorem marks_eq {s : Statement} (h : Unmarked s) :
    s.sql.toList.count '?' = s.params.length := by
  rw [Statement.sql, String.toList_join]
  induction s with
  | nil => rfl
  | cons piece s ih =>
    cases piece with
    | text words =>
      obtain ⟨hwords, hrest⟩ := unmarked_text.mp h
      have hnone : words.toList.count '?' = 0 := List.count_eq_zero.mpr hwords
      have hparams : Statement.params (.text words :: s) = Statement.params s := rfl
      rw [List.map_cons, List.flatMap_cons, List.count_append, ih hrest, hparams, Piece.sql, hnone,
        Nat.zero_add]
    | param p =>
      have hparams : Statement.params (.param p :: s) = p :: Statement.params s := rfl
      have hmark : (Piece.sql (.param p)).toList.count '?' = 1 := by rw [Piece.sql]; decide
      rw [List.map_cons, List.flatMap_cons, List.count_append, ih (unmarked_param.mp h), hparams,
        hmark, List.length_cons, Nat.add_comm]

theorem columnName_unmarked (column : Column) : '?' ∉ (columnName column).toList := by
  cases column <;> decide

theorem comparisonSign_unmarked (op : Comparison) : '?' ∉ (comparisonSign op).toList := by
  cases op <;> decide

mutual

theorem matchCondition_unmarked (t : FullText.MatchTree) : Unmarked (matchCondition t) := by
  cases t with
  | expr e => simp [matchCondition, unmarked_text, unmarked_param, unmarked_nil]
  | all parts =>
    rw [matchCondition]
    exact unmarked_joined (by decide) (matchConditions_unmarked parts)
  | any parts =>
    rw [matchCondition]
    exact unmarked_joined (by decide) (matchConditions_unmarked parts)
  | no part =>
    have hpart := matchCondition_unmarked part
    simp [matchCondition, unmarked_append, unmarked_text, unmarked_nil, hpart]

theorem matchConditions_unmarked (ts : List FullText.MatchTree) :
    ∀ s ∈ matchConditions ts, Unmarked s := by
  intro s hs
  cases ts with
  | nil => cases hs
  | cons t ts =>
    rcases List.mem_cons.mp hs with rfl | hs
    · exact matchCondition_unmarked t
    · exact matchConditions_unmarked ts s hs

end

theorem fullTextCondition_unmarked (language query : String) :
    Unmarked (fullTextCondition language query) := by
  unfold fullTextCondition
  split
  · exact matchCondition_unmarked _
  · simp [unmarked_text, unmarked_param, unmarked_nil]

theorem listCondition_unmarked (column : Column) (values : List Int) :
    Unmarked (listCondition column values) := by
  have hvalues : Unmarked ((values.map fun n => Piece.param (.int n)).intersperse (.text ", ")) := by
    intro words hmem
    rcases mem_of_mem_intersperse hmem with h | h
    · rw [Piece.text.inj h]
      decide
    · obtain ⟨n, -, hn⟩ := List.mem_map.mp h
      cases hn
  unfold listCondition
  split
  · simp [unmarked_text, unmarked_nil]
  · simp [unmarked_append, unmarked_text, unmarked_nil, hvalues, columnName_unmarked]

mutual

theorem condition_unmarked (p : Predicate) : Unmarked (condition p) := by
  cases p with
  | conj parts =>
    rcases parts with _ | ⟨p, ps⟩
    · simp [condition, unmarked_text, unmarked_nil]
    · rw [condition]
      exact unmarked_joined (by decide) (conditions_unmarked (p :: ps))
  | disj parts =>
    rcases parts with _ | ⟨p, ps⟩
    · simp [condition, unmarked_text, unmarked_nil]
    · rw [condition]
      exact unmarked_joined (by decide) (conditions_unmarked (p :: ps))
  | no inner =>
    have hinner := condition_unmarked inner
    simp [condition, unmarked_append, unmarked_text, unmarked_nil, hinner]
  | inList column values =>
    rw [condition]
    exact listCondition_unmarked column values
  | fullText language query =>
    rw [condition]
    exact fullTextCondition_unmarked language query
  | _ =>
    simp [condition, unmarked_text, unmarked_param, unmarked_nil, columnName_unmarked,
      comparisonSign_unmarked]

theorem conditions_unmarked (ps : List Predicate) : ∀ s ∈ conditions ps, Unmarked s := by
  intro s hs
  cases ps with
  | nil => cases hs
  | cons p ps =>
    rcases List.mem_cons.mp hs with rfl | hs
    · exact condition_unmarked p
    · exact conditions_unmarked ps s hs

end

theorem ownedBy_unmarked (owner : Int) (filter : Predicate) : Unmarked (ownedBy owner filter) := by
  simp [ownedBy, unmarked_text, unmarked_param, condition_unmarked filter]

theorem intercalate_unmarked {separator : String} {parts : List String}
    (hseparator : '?' ∉ separator.toList) (h : ∀ part ∈ parts, '?' ∉ part.toList) :
    '?' ∉ (String.intercalate separator parts).toList := by
  intro hmem
  rw [String.toList_intercalate] at hmem
  rcases mem_intercalate hmem with hmem | ⟨text, htext, hmem⟩
  · exact hseparator hmem
  · obtain ⟨part, hpart, rfl⟩ := List.mem_map.mp htext
    exact h part hpart hmem

theorem orderText_unmarked (o : SortOrder) : '?' ∉ (orderText o).toList := by
  refine intercalate_unmarked (by decide) fun part hpart => ?_
  rcases List.mem_append.mp hpart with hpart | hpart
  · obtain ⟨⟨column, direction⟩, -, rfl⟩ := List.mem_map.mp hpart
    have hcolumn : '?' ∉ (sortColumnName column).toList := by
      cases column <;> decide
    have hdirection : '?' ∉ (directionName direction).toList := by
      cases direction <;> decide
    simp [hcolumn, hdirection]
  · rw [List.mem_singleton.mp hpart]
    decide

theorem rowColumns_unmarked (includeContent : Bool) :
    '?' ∉ (String.intercalate ", " (rowColumns includeContent)).toList := by
  have hcolumns : ∀ part ∈ rowColumns includeContent, '?' ∉ part.toList := by
    cases includeContent <;> decide +kernel
  exact intercalate_unmarked (by decide) hcolumns

theorem tables_unmarked (allowArchived : Bool) : '?' ∉ (tables allowArchived).toList := by
  cases allowArchived <;> decide +kernel

theorem page_unmarked (q : ListingQuery) : Unmarked (page q) := by
  have hwindow : Unmarked (pageWindow q.limit q.offset) := by
    unfold pageWindow
    split
    · simp [unmarked_text, unmarked_param, unmarked_nil]
    · split <;> simp [unmarked_text, unmarked_param, unmarked_nil]
  have hdistinct : '?' ∉ (if q.distinct then "DISTINCT " else "").toList := by
    split <;> decide
  simp [page, unmarked_append, unmarked_text, ownedBy_unmarked, orderText_unmarked,
    tables_unmarked, rowColumns_unmarked, hwindow, hdistinct, -String.toList_intercalate]

theorem firstId_unmarked (q : ListingQuery) (since : Instant) : Unmarked (firstId q since) := by
  simp [firstId, unmarked_append, unmarked_text, unmarked_nil, ownedBy_unmarked,
    orderText_unmarked, tables_unmarked]

theorem count_unmarked (owner : Int) (allowArchived : Bool) (filter : Predicate) :
    Unmarked (count owner allowArchived filter) := by
  simp [count, unmarked_text, ownedBy_unmarked, tables_unmarked]

theorem trial_unmarked (owner : Int) (filter : Predicate) : Unmarked (trial owner filter) := by
  simp [trial, unmarked_append, unmarked_text, unmarked_nil, ownedBy_unmarked, tables_unmarked]

/-- What a reader or a plugin wrote has no part in the text of a statement: filters and queries that
differ in values alone are written in the same words. And each statement, for a filter of any
shape, has a place for each of its values. -/
theorem text_of_shape {p p' : Predicate} {q q' : ListingQuery} (hp : p.SameShape p')
    (hq : q.SameShape q') (owner owner' : Int) (allowArchived : Bool) (since since' : Instant) :
    (condition p).sql = (condition p').sql ∧
      (page q).sql = (page q').sql ∧
      (firstId q since).sql = (firstId q' since').sql ∧
      (count owner allowArchived p).sql = (count owner' allowArchived p').sql ∧
      (trial owner p).sql = (trial owner' p').sql ∧
      ∀ s ∈ [condition p, page q, firstId q since, count owner allowArchived p, trial owner p],
        s.sql.toList.count '?' = s.params.length := by
  refine ⟨(condition_sameText hp).sql_eq, (page_sameText hq).sql_eq,
    (firstId_sameText hq since since').sql_eq, (count_sameText owner owner' _ hp).sql_eq,
    (trial_sameText owner owner' hp).sql_eq, ?_⟩
  intro s hs
  apply marks_eq
  simp only [List.mem_cons, List.not_mem_nil, or_false] at hs
  rcases hs with rfl | rfl | rfl | rfl | rfl
  · exact condition_unmarked p
  · exact page_unmarked q
  · exact firstId_unmarked q since
  · exact count_unmarked owner allowArchived p
  · exact trial_unmarked owner p

/-- Rows of two feeds with a word in the title and others in the index. -/
def wordQuery (owner : Int) (needle query : String) (feeds : List Int) (offset : Int) :
    ListingQuery :=
  ⟨owner, false,
    .conj [.no (.contains .title needle), .inList .feedId feeds, .fullText "simple" query],
    .standard, true, false, some 30, offset⟩

def foxQuery : ListingQuery := wordQuery 1 "fox" "red & !fox" [1, 2] 0

/-- A needle that would be harmful in the text. -/
def dropQuery : ListingQuery := wordQuery 2 "'); DROP TABLE feeds; --" "den & !wolf" [7, -4] 60

theorem foxQuery_shape : foxQuery.SameShape dropQuery := by
  have hwords : FullText.SameOutcome (FullText.compile "simple" "red & !fox")
      (FullText.compile "simple" "den & !wolf") :=
    .ok (t := .expr (.butNot (.phrase ⟨["red"], false⟩) (.phrase ⟨["fox"], false⟩)))
      (u := .expr (.butNot (.phrase ⟨["den"], false⟩) (.phrase ⟨["wolf"], false⟩))) (.expr _ _)
  have hparts : Predicate.SameShape foxQuery.filter dropQuery.filter :=
    .conj (.cons (.no (.contains .title _ _))
      (.cons (.inList .feedId rfl) (.cons (.fullText hwords) .nil)))
  exact ⟨rfl, hparts, rfl, rfl, rfl, rfl, fun h => nomatch h⟩

/-- The two are read by one text, beside which other values stand. -/
theorem text_of_shape_fox :
    foxQuery.filter.SameShape dropQuery.filter ∧ foxQuery.SameShape dropQuery ∧
      (page foxQuery).sql = (page dropQuery).sql ∧
      (page foxQuery).params ≠ (page dropQuery).params ∧
      (page foxQuery).sql.toList.count '?' = (page foxQuery).params.length := by
  have hshape := foxQuery_shape
  obtain ⟨-, hpage, -, -, -, hmarks⟩ :=
    text_of_shape hshape.filter hshape 1 2 true ⟨0, 0⟩ ⟨1715342400, 0⟩
  refine ⟨hshape.filter, hshape, hpage, ?_, hmarks _ (by simp)⟩
  intro hparams
  have howner : some (Param.int 1) = some (Param.int 2) := congrArg List.head? hparams
  revert howner
  decide

end Sql

end Newsfeed
