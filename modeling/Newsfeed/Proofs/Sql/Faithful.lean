import Mathlib.Data.List.Nodup
import Mathlib.Data.List.ProdSigma
import Newsfeed.Proofs.Predicate.Conjunction
import Newsfeed.Proofs.Search.Meaning
import Newsfeed.Proofs.Sql.Evaluation
import Newsfeed.Proofs.Sql.Rendered

/-!
The expression of a filter has the value for a row that the filter has for it.
-/

namespace Newsfeed.Sql

open Newsfeed.FullText (MatchTree IndexExpr)

section Logic

variable {s : Store} {scope : Scope}

/-- Operands with one operator between them, grouped to the left, mean what they mean grouped to the
right. -/
theorem means_fold {β : Type} {expr : β → Expr} {truth : β → Truth} {join : Expr → Expr → Expr}
    {op : Truth → Truth → Truth} {unit : Truth}
    (hjoin : ∀ a b t u, a.Means s scope t → b.Means s scope u →
      (join a b).Means s scope (op t u))
    (hassoc : ∀ t u v, op (op t u) v = op t (op u v)) (hunit : ∀ t, op t unit = t) {x : β}
    {xs : List β} (h : ∀ y ∈ x :: xs, (expr y).Means s scope (truth y)) :
    (Expr.fold join ((x :: xs).map expr)).Means s scope
      (((x :: xs).map truth).foldr op unit) := by
  have hleft {ys : List β} (hys : ∀ y ∈ ys, (expr y).Means s scope (truth y)) {a : Expr} {t : Truth}
      (ha : a.Means s scope t) :
      ((ys.map expr).foldl join a).Means s scope (op t ((ys.map truth).foldr op unit)) := by
    -- What has been joined so far is general: it grows from the left, while the truth is taken from
    -- the right.
    induction ys generalizing a t with
    | nil => simpa [hunit] using ha
    | cons y ys ih =>
      have hy := hjoin a (expr y) t (truth y) ha (hys y List.mem_cons_self)
      have hrest := ih (fun z hz => hys z (List.mem_cons_of_mem y hz)) hy
      simpa [hassoc] using hrest
  exact hleft (fun y hy => h y (List.mem_cons_of_mem x hy)) (h x List.mem_cons_self)

theorem means_all {β : Type} {expr : β → Expr} {truth : β → Truth} {x : β} {xs : List β}
    (h : ∀ y ∈ x :: xs, (expr y).Means s scope (truth y)) :
    (Expr.fold .both ((x :: xs).map expr)).Means s scope
      (((x :: xs).map truth).foldr Truth.and (some true)) :=
  means_fold (fun _ _ _ _ => means_both) Truth.and_assoc Truth.and_true h

theorem means_any {β : Type} {expr : β → Expr} {truth : β → Truth} {x : β} {xs : List β}
    (h : ∀ y ∈ x :: xs, (expr y).Means s scope (truth y)) :
    (Expr.fold .either ((x :: xs).map expr)).Means s scope
      (((x :: xs).map truth).foldr Truth.or (some false)) :=
  means_fold (fun _ _ _ _ => means_either) Truth.or_assoc Truth.or_false h

end Logic

/-! ### Columns and values -/

section Columns

variable (s : Store) (r : Joined) (c : Column)

theorem value_column : (Expr.ofColumn c).value? s r.scope = some (r.look.cell c) := by
  cases c <;> rfl

/-- What is handed over is never null. -/
theorem valueParam_cell (v : Value) : (valueParam v).cell = v.cell := by
  cases v <;> rfl

theorem sign_eq_truth (a b : Cell) : Sign.eq.truth a b = Comparison.eq.truth a b := by
  rw [Sign.truth, Comparison.truth]
  cases a.order? b <;> rfl

theorem sign_eq_int (m n : Int) : Sign.eq.truth (.int m) (.int n) = some (decide (m = n)) := by
  have hcompare : Sign.eq.truth (.int m) (.int n) = some (compare m n == .eq) := rfl
  rw [hcompare, Option.some_inj, Bool.eq_iff_iff, beq_iff_eq, Std.compare_eq_iff_eq,
    decide_eq_true_eq]

theorem sign_eq_text (a b : String) :
    Sign.eq.truth (.text a) (.text b) = some (decide (a = b)) := by
  have hcompare : Sign.eq.truth (.text a) (.text b) = some (compare a b == .eq) := rfl
  rw [hcompare, Option.some_inj, Bool.eq_iff_iff, beq_iff_eq, Std.compare_eq_iff_eq,
    decide_eq_true_eq]

theorem isSame_null (a : Cell) : isSame a .null = decide (a = .null) := by
  cases a <;> rfl

theorem value_ne_null (v : Value) : v.cell ≠ .null := by
  cases v <;> exact Cell.noConfusion

/-- What is not the same as a value differs from it. -/
theorem not_isSame (a : Cell) (v : Value) :
    Truth.not (some (isSame a v.cell)) = Comparison.isNot.truth a v.cell := by
  rw [isSame, Comparison.truth]
  cases a.order? v.cell with
  | none => simp [value_ne_null, Truth.not]
  | some o => cases o <;> rfl

theorem means_same_null : (Expr.same (.ofColumn c) (.value .null)).Means s r.scope
    (some (decide (r.look.cell c = .null))) := by
  rw [Expr.Means, Expr.value?, value_column, Expr.value?, Option.bind_some, Option.map_some,
    isSame_null]
  rfl

theorem means_comparison (op : Comparison) (v : Value) :
    (Expr.ofComparison op (.ofColumn c) (.value (valueParam v).cell)).Means s r.scope
      (op.truth (r.look.cell c) v.cell) := by
  cases op with
  | isNot =>
    have hsame : (Expr.same (.ofColumn c) (.value (valueParam v).cell)).Means s r.scope
        (some (isSame (r.look.cell c) v.cell)) := by
      rw [Expr.Means, Expr.value?, value_column, Expr.value?, Option.bind_some, Option.map_some,
        valueParam_cell]
      rfl
    rw [← not_isSame]
    exact means_no hsame
  | _ =>
    rw [Expr.ofComparison, Expr.Means, Expr.value?, value_column, Expr.value?, Option.bind_some,
      Option.map_some, valueParam_cell, Sign.truth, Comparison.truth]
    cases (r.look.cell c).order? v.cell <;> rfl

theorem value_values (values : List Int) :
    Expr.values? s r.scope (values.map fun n => .value (.int n)) = some (values.map .int) := by
  induction values with
  | nil => rfl
  | cons n values ih =>
    rw [List.map_cons, Expr.values?, ih, Expr.value?]
    rfl

theorem isAmong_values (a : Cell) (values : List Int) :
    isAmong a (values.map .int) = a.isOneOf values := by
  rw [isAmong, Cell.isOneOf, List.foldr_map]
  simp only [sign_eq_truth]

theorem means_list (values : List Int) :
    (Expr.ofList c values).Means s r.scope ((r.look.cell c).isOneOf values) := by
  by_cases hnone : values = []
  · rw [hnone]
    rfl
  · rw [Expr.ofList, if_neg hnone, Expr.Means, Expr.value?, value_column, value_values,
      Option.bind_some, Option.map_some, isAmong_values]

/-- A column of texts holds a text or nothing. -/
theorem exists_text (h : c.isNumber = false) : ∃ a?, r.look.cell c = Cell.ofText? a? := by
  cases c <;> first | (cases h; done) | exact ⟨_, by rw [Look.cell]⟩

theorem means_contains (h : c.isNumber = false) (needle : String) :
    (Expr.like (.call "unicode_lower".toList [.ofColumn c]) (.value (.text (likePattern needle)))
      (.value (.text "\\"))).Means s r.scope ((r.look.cell c).holdsText needle) := by
  obtain ⟨a?, ha⟩ := exists_text r c h
  have hlower : (Expr.call "unicode_lower".toList [.ofColumn c]).value? s r.scope =
      some (Cell.ofText? (a?.map Text.lowercase)) := by
    rw [Expr.value?, Expr.values?, Expr.values?, value_column, ha]
    cases a? <;> rfl
  rw [Expr.Means, Expr.value?, hlower, Expr.value?, Expr.value?, ha]
  cases a? with
  | none => rfl
  | some a =>
    have hlike : likeCells (Cell.ofText? ((some a).map Text.lowercase))
        (.text (likePattern needle)) (.text "\\") =
          some (ofBool (isLike '\\' (likePattern needle) (Text.lowercase a))) := rfl
    rw [Option.bind_some, Option.bind_some, Option.bind_some, hlike, isLike_likePattern]
    rfl

/-- A text begins with another one if its first characters are that one. -/
theorem compare_substring (text start : String) :
    Sign.eq.truth (.text (substring text 1 start.length)) (.text start) =
      some (startsText start text) := by
  have hstarts : substring text 1 start.length = start ↔ startsText start text := by
    rw [← String.toList_inj, substring, String.toList_ofList, startsText, Bool.and_eq_true,
      List.isPrefixOf_iff_prefix, List.prefix_iff_eq_take, ← String.length_toList, eq_comm,
      Nat.sub_self, List.drop_zero]
    refine (and_iff_right_of_imp fun htake => ?_).symm
    have hnul : '\x00' ∉ untilNul text.toList := fun hmem => by
      simpa using List.mem_takeWhile_imp hmem
    rw [htake]
    simpa using fun hmem => hnul (List.mem_of_mem_take hmem)
  rw [sign_eq_text, Option.some_inj, Bool.eq_iff_iff, decide_eq_true_eq, hstarts]

theorem means_startsWith (start : String) :
    (Expr.compare .eq
      (.call "SUBSTR".toList [.ofColumn c, .value (.int 1), .value (.int start.length)])
      (.value (.text start))).Means s r.scope ((r.look.cell c).startsWith start) := by
  have hcall : (Expr.call "SUBSTR".toList [.ofColumn c, .value (.int 1),
      .value (.int start.length)]).value? s r.scope = some (Cell.ofText?
        ((textOfCell? (r.look.cell c)).map fun a => substring a 1 start.length)) := by
    have hcount : 0 < (1 : Int) ∧ 0 ≤ (start.length : Int) := by omega
    have hargs : Expr.values? s r.scope [.ofColumn c, .value (.int 1), .value (.int start.length)] =
        some [r.look.cell c, .int 1, .int start.length] := by
      simp only [Expr.values?, value_column, Expr.value?, Option.bind_some, Option.map_some]
    have hsubstr : callFunction "SUBSTR".toList [r.look.cell c, .int 1, .int start.length] =
        if 0 < (1 : Int) ∧ 0 ≤ (start.length : Int) then some (Cell.ofText?
          ((textOfCell? (r.look.cell c)).map fun a => substring a 1 start.length))
        else none := rfl
    rw [Expr.value?, hargs, Option.bind_some, hsubstr, if_pos hcount]
  rw [Expr.Means, Expr.value?, hcall, Expr.value?, Option.bind_some, Option.map_some]
  cases r.look.cell c with
  | null => rfl
  | int n => exact congrArg (fun t => some (ofTruth t)) (compare_substring (toString n) start)
  | text a => exact congrArg (fun t => some (ofTruth t)) (compare_substring a start)

end Columns

/-! ### Questions to other tables -/

section Tables

variable {s : Store} {scope : Scope} {a result condition : Expr} {tables : List Source} {n : Int}

theorem mapM_of_forall {α β γ : Type} {f : α → β} {g : β → Option γ} {h : α → γ} {xs : List α}
    (hall : ∀ x ∈ xs, g (f x) = some (h x)) : (xs.map f).mapM g = some (xs.map h) := by
  induction xs with
  | nil => rfl
  | cons x xs ih =>
    have hrest := ih fun y hy => hall y (List.mem_cons_of_mem x hy)
    rw [List.map_cons, List.mapM_cons, hall x List.mem_cons_self, hrest]
    rfl

theorem isAmong_found {β : Type} (keep : β → Bool) (key : β → Int) (n : Int) (xs : List β) :
    isAmong (.int n) ((xs.map fun x =>
      if keep x then some (Cell.int (key x)) else none).filterMap id) =
        some (xs.any fun x => keep x && n = key x) := by
  induction xs with
  | nil => rfl
  | cons x xs ih =>
    rw [List.map_cons, List.any_cons]
    cases keep x with
    | false => simpa using ih
    | true =>
      have hcons (cells : List Cell) : isAmong (.int n) (.int (key x) :: cells) =
          (Sign.eq.truth (.int n) (.int (key x))).or (isAmong (.int n) cells) := rfl
      have hfirst (found : List (Option Cell)) : (some (Cell.int (key x)) :: found).filterMap id =
          .int (key x) :: found.filterMap id := rfl
      rw [if_pos rfl, hfirst, hcons, ih, sign_eq_int]
      cases decide (n = key x) <;> cases xs.any fun x => keep x && n = key x <;> rfl

/-- A number is among the results if a row is kept that has it. -/
theorem means_among {β : Type} {rows : β → Scope} {xs : List β} {keep : β → Bool} {key : β → Int}
    (ha : a.value? s scope = some (.int n)) (hrows : s.product? tables = some (xs.map rows))
    (hcondition : ∀ x ∈ xs, condition.Means s (rows x ++ scope) (some (keep x)))
    (hresult : ∀ x ∈ xs, result.value? s (rows x ++ scope) = some (.int (key x))) :
    (Expr.among a result tables condition).Means s scope
      (some (xs.any fun x => keep x && n = key x)) := by
  have hrow : ∀ x ∈ xs, resultOf (condition.value? s (rows x ++ scope))
      (result.value? s (rows x ++ scope)) =
        some (if keep x then some (Cell.int (key x)) else none) := by
    intro x hx
    rw [hcondition x hx, hresult x hx, resultOf, Option.bind_some, truth_ofTruth]
    cases keep x <;> rfl
  have hfound : (xs.map rows).mapM (fun r => resultOf (condition.value? s (r ++ scope))
      (result.value? s (r ++ scope))) =
        some (xs.map fun x => if keep x then some (Cell.int (key x)) else none) :=
    mapM_of_forall hrow
  rw [Expr.Means, Expr.value?, ha, hrows, Option.bind_some, Option.bind_some, hfound,
    Option.map_some, isAmong_found]

variable {α β : Type} {xs : List α} {ys : List β} {row : α → Row} {other : β → Row} {t u : Source}

theorem product_one (h : s.rowsOf? t = some (xs.map row)) :
    s.product? [t] = some (xs.map fun x => [row x]) := by
  rw [Store.product?, h, Store.product?, Option.bind_some, Option.map_some]
  simp [← List.map_eq_flatMap]

theorem product_two (h : s.rowsOf? t = some (xs.map row))
    (h' : s.rowsOf? u = some (ys.map other)) :
    s.product? [t, u] = some ((xs.product ys).map fun p => [row p.1, other p.2]) := by
  rw [Store.product?, h, product_one h', Option.bind_some, Option.map_some, List.product,
    List.map_flatMap, List.flatMap_map]
  simp only [List.map_map]
  rfl

end Tables

section Memberships

variable (s : Store) (r : Joined)

theorem means_equals {scope : Scope} {column : String} {c : Cell}
    (h : scope.cell? none column.toList = some c) (p : Param) :
    (Expr.equals column p).Means s scope (Sign.eq.truth c p.cell) := by
  have hcolumn : (Expr.column none column.toList).value? s scope = some c := by
    rw [Expr.value?, h]
  rw [Expr.equals, Expr.Means, Expr.value?, hcolumn, Expr.value?, Option.bind_some,
    Option.map_some]

theorem means_label (id : Int) :
    (Expr.inTable (.ofColumn .entryId) "user_labels" "article_id"
      (.equals "label_id" (.int id))).Means s r.scope
        (some (s.labelings.contains ⟨id, r.article.id⟩)) := by
  have hrows : s.product? [⟨"user_labels".toList, "user_labels".toList⟩] =
      some (s.labelings.map fun l => [l.row "user_labels".toList]) := product_one rfl
  have hcondition : ∀ l ∈ s.labelings, (Expr.equals "label_id" (.int id)).Means s
      ([l.row "user_labels".toList] ++ r.scope) (some (decide (l.label = id))) := by
    intro l _
    rw [← sign_eq_int]
    exact means_equals s rfl (.int id)
  have hresult : ∀ l ∈ s.labelings, (Expr.column none "article_id".toList).value? s
      ([l.row "user_labels".toList] ++ r.scope) = some (.int l.article) := fun _ _ => rfl
  have hmeans := means_among (value_column s r .entryId) hrows hcondition hresult
  have hkept : (fun l : Labeling => decide (l.label = id) && decide (r.article.id = l.article)) =
      (Labeling.mk id r.article.id == ·) := by
    funext l
    rw [Bool.eq_iff_iff, Bool.and_eq_true, decide_eq_true_eq, decide_eq_true_eq, beq_iff_eq]
    constructor
    · intro h
      rw [← h.1, h.2]
    · intro h
      rw [← h]
      exact ⟨rfl, rfl⟩
  rw [List.contains_eq_any_beq, ← hkept]
  exact hmeans

theorem means_tag (owner : Int) (name : String) :
    (Expr.inTable (.column (some "ue".toList) "int_id".toList) "tags" "post_int_id"
      (.both (.equals "owner_uid" (.int owner)) (.equals "tag_name" (.text name)))).Means s r.scope
        (some (s.tags.contains ⟨owner, r.copy.id, name⟩)) := by
  have hrows : s.product? [⟨"tags".toList, "tags".toList⟩] =
      some (s.tags.map fun t => [t.row "tags".toList]) := product_one rfl
  have hcondition : ∀ t ∈ s.tags,
      (Expr.both (.equals "owner_uid" (.int owner)) (.equals "tag_name" (.text name))).Means s
        ([t.row "tags".toList] ++ r.scope)
        (some (decide (t.owner = owner) && decide (t.name = name))) := by
    intro t _
    have howner : (Expr.equals "owner_uid" (.int owner)).Means s
        ([t.row "tags".toList] ++ r.scope) (some (decide (t.owner = owner))) := by
      rw [← sign_eq_int]
      exact means_equals s rfl (.int owner)
    have hname : (Expr.equals "tag_name" (.text name)).Means s
        ([t.row "tags".toList] ++ r.scope) (some (decide (t.name = name))) := by
      rw [← sign_eq_text]
      exact means_equals s rfl (.text name)
    rw [← Truth.and_some]
    exact means_both howner hname
  have hcopy : (Expr.column (some "ue".toList) "int_id".toList).value? s r.scope =
      some (.int r.copy.id) := rfl
  have hresult : ∀ t ∈ s.tags, (Expr.column none "post_int_id".toList).value? s
      ([t.row "tags".toList] ++ r.scope) = some (.int t.copy) := fun _ _ => rfl
  have hmeans := means_among hcopy hrows hcondition hresult
  have hkept : (fun t : Tag => decide (t.owner = owner) && decide (t.name = name) &&
      decide (r.copy.id = t.copy)) = (Tag.mk owner r.copy.id name == ·) := by
    funext t
    rw [Bool.eq_iff_iff, Bool.and_eq_true, Bool.and_eq_true, decide_eq_true_eq,
      decide_eq_true_eq, decide_eq_true_eq, beq_iff_eq]
    constructor
    · intro h
      rw [← h.1.1, ← h.1.2, h.2]
    · intro h
      rw [← h]
      exact ⟨⟨rfl, rfl⟩, rfl⟩
  rw [List.contains_eq_any_beq, ← hkept]
  exact hmeans

theorem means_labelOf (owner : Int) :
    (Expr.ofOwner owner).Means s r.scope (some (s.hasLabelOf r.article.id owner)) := by
  have hrows : s.product? [⟨"user_labels".toList, "ul".toList⟩, ⟨"labels".toList, "l".toList⟩] =
      some ((s.labelings.product s.labels).map fun p =>
        [p.1.row "ul".toList, p.2.row "l".toList]) := product_two rfl rfl
  have hcondition : ∀ p ∈ s.labelings.product s.labels,
      (Expr.both
        (.compare .eq (.column (some "l".toList) "id".toList)
          (.column (some "ul".toList) "label_id".toList))
        (.compare .eq (.column (some "l".toList) "owner_uid".toList) (.value (.int owner)))).Means s
        ([p.1.row "ul".toList, p.2.row "l".toList] ++ r.scope)
        (some (decide (p.2.id = p.1.label) && decide (p.2.owner = owner))) := by
    intro p _
    have hlabel : (Expr.compare .eq (.column (some "l".toList) "id".toList)
        (.column (some "ul".toList) "label_id".toList)).Means s
          ([p.1.row "ul".toList, p.2.row "l".toList] ++ r.scope)
          (some (decide (p.2.id = p.1.label))) := by
      rw [← sign_eq_int]
      rfl
    have howner : (Expr.compare .eq (.column (some "l".toList) "owner_uid".toList)
        (.value (.int owner))).Means s ([p.1.row "ul".toList, p.2.row "l".toList] ++ r.scope)
          (some (decide (p.2.owner = owner))) := by
      rw [← sign_eq_int]
      rfl
    rw [← Truth.and_some]
    exact means_both hlabel howner
  have hresult : ∀ p ∈ s.labelings.product s.labels,
      (Expr.column (some "ul".toList) "article_id".toList).value? s
        ([p.1.row "ul".toList, p.2.row "l".toList] ++ r.scope) = some (.int p.1.article) :=
    fun _ _ => rfl
  have hmeans := means_among (value_column s r .entryId) hrows hcondition hresult
  have hkept : ((s.labelings.product s.labels).any fun p =>
      decide (p.2.id = p.1.label) && decide (p.2.owner = owner) &&
        decide (r.article.id = p.1.article)) = s.hasLabelOf r.article.id owner := by
    rw [Bool.eq_iff_iff]
    simp only [Store.hasLabelOf, List.any_eq_true, Bool.and_eq_true, decide_eq_true_eq]
    constructor
    · intro h
      obtain ⟨p, hp, ⟨hid, howner⟩, harticle⟩ := h
      obtain ⟨hl, hb⟩ := List.mem_product.mp hp
      exact ⟨p.1, hl, harticle.symm, p.2, hb, hid, howner⟩
    · intro h
      obtain ⟨l, hl, harticle, b, hb, hid, howner⟩ := h
      exact ⟨(l, b), List.mem_product.mpr ⟨hl, hb⟩, ⟨hid, howner⟩, harticle.symm⟩
  rw [← hkept]
  exact hmeans

end Memberships

section Index

variable {s : Store} (h : (s.index.map IndexRow.article).Nodup) (r : Joined)

theorem holds_nil (e : IndexExpr) : e.holds [] = false := by
  induction e with
  | phrase p => rfl
  | near p q gap => rfl
  | both a b ha hb => rw [IndexExpr.holds, ha, Bool.false_and]
  | either a b ha hb => rw [IndexExpr.holds, ha, hb, Bool.false_or]
  | butNot a b ha hb => rw [IndexExpr.holds, ha, Bool.false_and]

include h

/-- An article has one row in the index at most, and no words without one. -/
theorem holds_indexedWords (e : IndexExpr) (article : Int) :
    (s.index.any fun x => e.holds x.words && article = x.article) =
      e.holds (s.indexedWords article) := by
  rw [Store.indexedWords]
  -- The question looks at all rows of the index, the filter at the first of the article.
  cases hfind : s.index.find? fun x => x.article = article with
  | none =>
    rw [Option.map_none, Option.getD_none, holds_nil, List.any_eq_false]
    intro x hx
    have hne := List.find?_eq_none.mp hfind x hx
    simp only [decide_eq_true_eq] at hne
    simp [Ne.symm hne]
  | some x =>
    rw [Option.map_some, Option.getD_some, Bool.eq_iff_iff, List.any_eq_true]
    have hx := List.mem_of_find?_eq_some hfind
    have hid : x.article = article := by simpa using List.find?_some hfind
    constructor
    · intro hany
      obtain ⟨y, hy, hholds⟩ := hany
      simp only [Bool.and_eq_true, decide_eq_true_eq] at hholds
      rw [List.inj_on_of_nodup_map h hx hy (hid.trans hholds.2)]
      exact hholds.1
    · intro hholds
      exact ⟨x, hx, by simp [hholds, hid]⟩

theorem means_index {e : IndexExpr} (he : Indexing.Spelt e) :
    (Expr.inTable (.ofColumn .entryId) "entries_fts" "rowid"
      (.answers "entries_fts".toList (.value (.text e.text)))).Means s r.scope
        (some (e.holds (s.indexedWords r.article.id))) := by
  have hrows : s.product? [⟨"entries_fts".toList, "entries_fts".toList⟩] =
      some (s.index.map fun x => [x.row "entries_fts".toList]) := product_one rfl
  have hcondition : ∀ x ∈ s.index, (Expr.answers "entries_fts".toList
      (.value (.text e.text))).Means s ([x.row "entries_fts".toList] ++ r.scope)
        (some (e.holds x.words)) := by
    intro x _
    have hwords : Scope.words? ([x.row "entries_fts".toList] ++ r.scope) "entries_fts".toList =
        some x.words := rfl
    rw [Expr.Means, Expr.value?, hwords, Expr.value?, Option.bind_some, Option.bind_some,
      answerCell, Indexing.read_text he]
    rfl
  have hresult : ∀ x ∈ s.index, (Expr.column none "rowid".toList).value? s
      ([x.row "entries_fts".toList] ++ r.scope) = some (.int x.article) := fun _ _ => rfl
  rw [← holds_indexedWords h]
  exact means_among (value_column s r .entryId) hrows hcondition hresult

end Index

/-! ### Filters -/

section Filters

theorem holdsAll_eq (doc : List String) (ts : List MatchTree) :
    some (MatchTree.holdsAll doc ts) =
      (ts.map fun t => some (t.holds doc)).foldr Truth.and (some true) := by
  induction ts with
  | nil => rw [MatchTree.holdsAll]; rfl
  | cons t ts ih => rw [MatchTree.holdsAll, ← Truth.and_some, ih]; rfl

theorem holdsAny_eq (doc : List String) (ts : List MatchTree) :
    some (MatchTree.holdsAny doc ts) =
      (ts.map fun t => some (t.holds doc)).foldr Truth.or (some false) := by
  induction ts with
  | nil => rw [MatchTree.holdsAny]; rfl
  | cons t ts ih => rw [MatchTree.holdsAny, ← Truth.or_some, ih]; rfl

theorem truthOfAll_eq (row : Facts) (ps : List Predicate) :
    Predicate.truthOfAll row ps =
      (ps.map (Predicate.truth row)).foldr Truth.and (some true) := by
  induction ps with
  | nil => rw [Predicate.truthOfAll]; rfl
  | cons p ps ih => rw [Predicate.truthOfAll, ih]; rfl

theorem truthOfAny_eq (row : Facts) (ps : List Predicate) :
    Predicate.truthOfAny row ps =
      (ps.map (Predicate.truth row)).foldr Truth.or (some false) := by
  induction ps with
  | nil => rw [Predicate.truthOfAny]; rfl
  | cons p ps ih => rw [Predicate.truthOfAny, ih]; rfl

variable {s : Store}

mutual

theorem means_match (h : (s.index.map IndexRow.article).Nodup) (r : Joined) {t : MatchTree}
    (ht : t.Askable) :
    (Expr.ofMatch t).Means s r.scope (some (t.holds (s.indexedWords r.article.id))) := by
  cases t with
  | expr e =>
    rw [Expr.ofMatch, MatchTree.holds]
    exact means_index h r ht
  | all parts =>
    obtain ⟨t, ts, rfl⟩ := List.exists_cons_of_ne_nil ht.1
    rw [Expr.ofMatch, ofMatches_eq_map, MatchTree.holds, holdsAll_eq]
    exact means_all (means_matches h r ht.2)
  | any parts =>
    obtain ⟨t, ts, rfl⟩ := List.exists_cons_of_ne_nil ht.1
    rw [Expr.ofMatch, ofMatches_eq_map, MatchTree.holds, holdsAny_eq]
    exact means_any (means_matches h r ht.2)
  | no part =>
    rw [Expr.ofMatch, MatchTree.holds]
    exact means_no (means_match h r (t := part) ht)

theorem means_matches (h : (s.index.map IndexRow.article).Nodup) (r : Joined)
    {ts : List MatchTree} (hts : MatchTree.AllAskable ts) : ∀ t ∈ ts,
    (Expr.ofMatch t).Means s r.scope (some (t.holds (s.indexedWords r.article.id))) := by
  intro t ht
  cases ts with
  | nil => cases ht
  | cons u ts =>
    rcases List.mem_cons.mp ht with rfl | ht
    · exact means_match h r hts.1
    · exact means_matches h r hts.2 t ht

end

theorem means_fullText (h : (s.index.map IndexRow.article).Nodup) (r : Joined)
    {language query : String} {tree : MatchTree}
    (hcompile : FullText.compile language query = .ok tree) :
    (Expr.ofFullText language query).Means s r.scope
      (FullText.passes language query (s.indexedWords r.article.id)) := by
  simp only [Expr.ofFullText, FullText.passes, hcompile]
  exact means_match h r (FullText.askable_compile hcompile)

open Predicate

mutual

/-- The expression of a filter is as true as the filter. -/
theorem means_predicate (h : (s.index.map IndexRow.article).Nodup) (r : Joined) {p : Predicate}
    (hp : Each Runnable p) :
    (Expr.ofPredicate p).Means s r.scope (p.truth (s.facts r)) := by
  cases p with
  | always => rw [truth]; rfl
  | never => rw [truth]; rfl
  | conj parts =>
    cases parts with
    | nil => rw [truth, truthOfAll]; rfl
    | cons p ps =>
      rw [Expr.ofPredicate, ofPredicates_eq_map, truth, truthOfAll_eq]
      exact means_all (@means_predicates h r (p :: ps) fun a ha => hp a ha)
  | disj parts =>
    cases parts with
    | nil => rw [truth, truthOfAny]; rfl
    | cons p ps =>
      rw [Expr.ofPredicate, ofPredicates_eq_map, truth, truthOfAny_eq]
      exact means_any (@means_predicates h r (p :: ps) fun a ha => hp a ha)
  | no inner =>
    rw [Expr.ofPredicate, truth]
    exact means_no (means_predicate h r (p := inner) fun a ha => hp a ha)
  | compare column op value =>
    rw [truth]
    exact means_comparison s r column op value
  | isNull column =>
    rw [truth]
    exact means_same_null s r column
  | notNull column =>
    have hno := means_no (means_same_null s r column)
    have htruth : (Predicate.notNull column).truth (s.facts r) =
        Truth.not (some (decide (r.look.cell column = .null))) := by
      rw [truth, decide_not]
      rfl
    rw [htruth]
    exact hno
  | contains column needle =>
    rw [truth]
    have hcolumn := (each_atom (a := .contains column needle) trivial).mp hp
    exact means_contains s r column hcolumn needle
  | inList column values =>
    rw [truth]
    exact means_list s r column values
  | startsWith column start =>
    rw [truth]
    exact means_startsWith s r column start
  | label id =>
    rw [truth]
    exact means_label s r id
  | labelOf owner =>
    rw [truth]
    exact means_labelOf s r owner
  | tag owner name =>
    rw [truth]
    exact means_tag s r owner name
  | fullText language query =>
    rw [truth]
    obtain ⟨tree, htree⟩ := (each_atom (a := .fullText language query) trivial).mp hp
    exact means_fullText h r htree

theorem means_predicates (h : (s.index.map IndexRow.article).Nodup) (r : Joined)
    {ps : List Predicate} (hps : ∀ a ∈ atomsOfAll ps, Runnable a) :
    ∀ p ∈ ps, (Expr.ofPredicate p).Means s r.scope (p.truth (s.facts r)) := by
  intro p hp
  cases ps with
  | nil => cases hp
  | cons q ps =>
    rw [atomsOfAll] at hps
    rcases List.mem_cons.mp hp with rfl | hp
    · exact means_predicate h r fun a ha => hps a (List.mem_append_left _ ha)
    · exact means_predicates h r (fun a ha => hps a (List.mem_append_right _ ha)) p hp

end

end Filters

end Newsfeed.Sql
