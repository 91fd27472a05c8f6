import Newsfeed.Proofs.Sql.Faithful

/-!
Statements that read rows: how one is read, and the rows that it selects. The tables are joined one
by one, each to the rows that there are so far, and the rows are kept that the condition is known to
hold for.
-/

namespace Newsfeed.Sql

open Newsfeed.Reading

/-- The condition is known to hold. It does not hold where it has no value. -/
def Expr.isMet (s : Store) (scope : Scope) (e : Expr) : Bool :=
  ((e.value? s scope).bind truth?).any Truth.holds

/-- Where the rows of a statement come from, and what they are held to. -/
structure Select where
  first : Source
  joins : List Joining
  condition : Expr
  deriving Repr

namespace Select

/-- Nothing stands behind the condition but an order and a window. -/
def isClosed : List Token → Bool
  | [] => true
  | .keyword .order :: _ => true
  | .keyword .limit :: _ => true
  | _ => false

/-- Results are passed over, up to the tables. -/
def ofTokens? (ts : List Token) : Option Select := do
  let inner := expression (ts.length + 1)
  let behind := (ts.dropWhile (· ≠ .keyword .source)).tail
  let ((first, joins), ts) ← upTo (.keyword .whose) (sources inner behind)
  let (condition, ts) ← inner ts
  if isClosed ts then some ⟨first, joins, condition⟩ else none

def read? (sql : String) (params : List Param) : Option Select :=
  (tokens? sql params).bind ofTokens?

/-- The row in place of one that does not fit, in which all is null. Only feeds are joined so. -/
def nullRow? (t : Source) : Option Row :=
  if t.table = "feeds".toList then some (Feed.row t.called none) else none

/-- The row so far with each row of the table that fits it. -/
def fitting? (s : Store) (j : Joining) (scope : Scope) : Option (List Scope) :=
  (s.rowsOf? j.source).map fun rows =>
    (rows.map fun r => scope ++ [r]).filter fun scope => j.on.isMet s scope

def join? (s : Store) (j : Joining) (scope : Scope) : Option (List Scope) :=
  (fitting? s j scope).bind fun found =>
    if found = [] ∧ j.isLeft then (nullRow? j.source).map fun r => [scope ++ [r]] else some found

def joinAll? (s : Store) : List Joining → List Scope → Option (List Scope)
  | [], scopes => some scopes
  | j :: js, scopes => (scopes.mapM (join? s j)).bind fun more => joinAll? s js more.flatten

/-- The rows that the statement selects. -/
def rows? (s : Store) (q : Select) : Option (List Scope) :=
  (s.rowsOf? q.first).bind fun rows =>
    (joinAll? s q.joins (rows.map fun r => [r])).map fun scopes =>
      scopes.filter (q.condition.isMet s)

end Select

/-! ### Tables of listings -/

/-- Copies are joined to their articles. -/
def copiesOfArticles : Joining where
  source := ⟨"user_entries".toList, "ue".toList⟩
  isLeft := false
  on := .compare .eq (.column (some "ue".toList) "ref_id".toList)
    (.column (some "e".toList) "id".toList)

/-- Feeds are joined to their copies; copies without a feed are kept or dropped. -/
def feedsOfCopies (allowArchived : Bool) : Joining where
  source := ⟨"feeds".toList, "f".toList⟩
  isLeft := allowArchived
  on := .compare .eq (.column (some "f".toList) "id".toList)
    (.column (some "ue".toList) "feed_id".toList)

def ofListing (allowArchived : Bool) (condition : Expr) : Select :=
  ⟨⟨"entries".toList, "e".toList⟩, [copiesOfArticles, feedsOfCopies allowArchived], condition⟩

section Rows

variable {s : Store} {scope : Scope} {e : Expr}

theorem isMet_of_means {t : Truth} (h : e.Means s scope t) : e.isMet s scope = t.holds := by
  rw [Expr.isMet, h, Option.bind_some, truth_ofTruth, Option.any_some]

theorem fitting_eq {α : Type} {xs : List α} {row : α → Row} {j : Joining} {fits : α → Bool}
    (hrows : s.rowsOf? j.source = some (xs.map row))
    (hon : ∀ x, j.on.isMet s (scope ++ [row x]) = fits x) :
    Select.fitting? s j scope = some ((xs.filter fits).map fun x => scope ++ [row x]) := by
  have hfits : ((fun scope => j.on.isMet s scope) ∘ fun x => scope ++ [row x]) = fits :=
    funext hon
  rw [Select.fitting?, hrows, Option.map_some, List.map_map, List.filter_map]
  simp only [Function.comp_def] at hfits ⊢
  rw [hfits]

theorem copies_fitting (a : Article) :
    Select.join? s copiesOfArticles [a.row "e".toList] =
      some ((s.copies.filter fun c => c.article = a.id).map fun c =>
        [a.row "e".toList, c.row "ue".toList]) := by
  have hon (c : Copy) : copiesOfArticles.on.isMet s
      ([a.row "e".toList] ++ [c.row "ue".toList]) = decide (c.article = a.id) := by
    have hmeans : copiesOfArticles.on.Means s ([a.row "e".toList] ++ [c.row "ue".toList])
        (some (decide (c.article = a.id))) := by
      rw [← sign_eq_int]
      rfl
    rw [isMet_of_means hmeans]
    cases decide (c.article = a.id) <;> rfl
  have hrows : s.rowsOf? copiesOfArticles.source = some (s.copies.map (Copy.row "ue".toList)) := rfl
  rw [Select.join?, fitting_eq hrows hon, Option.bind_some]
  exact if_neg fun h => Bool.false_ne_true h.2

theorem feeds_fitting (allowArchived : Bool) (a : Article) (c : Copy) :
    Select.join? s (feedsOfCopies allowArchived) [a.row "e".toList, c.row "ue".toList] =
      some ((s.feedsOf allowArchived c).map fun f => (Joined.mk a c f).scope) := by
  have hon (f : Feed) : (feedsOfCopies allowArchived).on.isMet s
      ([a.row "e".toList, c.row "ue".toList] ++ [Feed.row "f".toList (some f)]) =
        decide (c.feed = some f.id) := by
    have hmeans : (feedsOfCopies allowArchived).on.Means s
        ([a.row "e".toList, c.row "ue".toList] ++ [Feed.row "f".toList (some f)])
        (Sign.eq.truth (.int f.id) (Cell.ofInt? c.feed)) := rfl
    rw [isMet_of_means hmeans]
    cases c.feed with
    | none => rfl
    | some n =>
      rw [Cell.ofInt?, sign_eq_int, Bool.eq_iff_iff]
      simp [Truth.holds, eq_comm]
  have hrows : s.rowsOf? (feedsOfCopies allowArchived).source =
      some (s.feeds.map fun f => Feed.row "f".toList (some f)) := rfl
  have hnull : Select.nullRow? (feedsOfCopies allowArchived).source =
      some (Feed.row "f".toList none) := rfl
  have hleft : (feedsOfCopies allowArchived).isLeft = allowArchived := rfl
  rw [Select.join?, fitting_eq hrows hon, Option.bind_some, hnull, hleft, Store.feedsOf]
  simp only [List.map_eq_nil_iff]
  by_cases hnone : (s.feeds.filter fun f => c.feed = some f.id) = [] ∧ allowArchived
  · rw [if_pos hnone, if_pos hnone]
    rfl
  · rw [if_neg hnone, if_neg hnone, List.map_map]
    rfl

theorem joinAll_cons {α : Type} {j : Joining} {xs : List α} {scopes : α → Scope}
    {more : α → List Scope} (h : ∀ x ∈ xs, Select.join? s j (scopes x) = some (more x))
    (js : List Joining) :
    Select.joinAll? s (j :: js) (xs.map scopes) = Select.joinAll? s js (xs.flatMap more) := by
  rw [Select.joinAll?, mapM_of_forall h, Option.bind_some, ← List.flatMap_def]

/-- What a listing selects are those of the joined rows that its condition holds for. -/
theorem rows_ofListing (s : Store) (allowArchived : Bool) (condition : Expr) :
    (ofListing allowArchived condition).rows? s =
      some (((s.joined allowArchived).filter fun r => condition.isMet s r.scope).map
        Joined.scope) := by
  have hrows : s.rowsOf? (ofListing allowArchived condition).first =
      some (s.articles.map (Article.row "e".toList)) := rfl
  have hjoins : Select.joinAll? s [copiesOfArticles, feedsOfCopies allowArchived]
      (s.articles.map fun a => [a.row "e".toList]) =
        some ((s.joined allowArchived).map Joined.scope) := by
    -- The rows so far as a list of pairs, to which the next table is joined.
    have hpairs : (s.articles.flatMap fun a => (s.copies.filter fun c => c.article = a.id).map
        fun c => [a.row "e".toList, c.row "ue".toList]) =
          (s.articles.flatMap fun a => (s.copies.filter fun c => c.article = a.id).map
            (Prod.mk a)).map fun p => [p.1.row "e".toList, p.2.row "ue".toList] := by
      rw [List.map_flatMap]
      simp only [List.map_map, Function.comp_def]
    rw [joinAll_cons fun a _ => copies_fitting a, hpairs,
      joinAll_cons fun p _ => feeds_fitting allowArchived p.1 p.2, Select.joinAll?]
    simp only [Store.joined, List.flatMap_assoc, List.flatMap_map, List.map_flatMap, List.map_map]
    rfl
  have hstart : ((s.articles.map (Article.row "e".toList)).map fun r => [r]) =
      s.articles.map fun a => [a.row "e".toList] := by
    rw [List.map_map]
    rfl
  have hlist : (ofListing allowArchived condition).joins =
      [copiesOfArticles, feedsOfCopies allowArchived] := rfl
  rw [Select.rows?, hrows, Option.bind_some, hstart, hlist, hjoins, Option.map_some,
    List.filter_map]
  rfl

end Rows

/-! ### Owners -/

/-- The copy is one of the owner's. -/
def ownedExpr (owner : Int) : Expr :=
  .compare .eq (.column (some "ue".toList) "owner_uid".toList) (.value (.int owner))

section Owners

variable {s : Store} {r : Joined} {owner : Int}

theorem means_owned (s : Store) (r : Joined) (owner : Int) :
    (ownedExpr owner).Means s r.scope (some (decide (r.copy.owner = owner))) := by
  rw [← sign_eq_int]
  rfl

/-- Whatever stands behind it, the condition that the copy is the owner's holds where both hold. -/
theorem owner_of_isMet {e : Expr} (h : (Expr.both (ownedExpr owner) e).isMet s r.scope) :
    r.copy.owner = owner := by
  have howned : (ownedExpr owner).value? s r.scope =
      some (ofTruth (some (decide (r.copy.owner = owner)))) := means_owned s r owner
  by_contra hother
  rw [decide_eq_false hother] at howned
  have hfalse (t : Truth) : (Truth.and (some false) t).holds = false := rfl
  rw [Expr.isMet, Expr.value?, howned, Option.bind_some] at h
  cases hvalue : e.value? s r.scope with
  | none =>
    rw [hvalue] at h
    exact Bool.false_ne_true h
  | some c =>
    rw [hvalue, Option.bind_some, joinCells, truth_ofTruth, Option.bind_some] at h
    cases htruth : truth? c with
    | none =>
      rw [htruth] at h
      exact Bool.false_ne_true h
    | some t =>
      rw [htruth, Option.map_some, Option.bind_some, truth_ofTruth, Option.any_some, hfalse] at h
      exact Bool.false_ne_true h

open Predicate in
/-- The rows that a listing selects are those of the owner that pass the filter. -/
theorem filter_isMet (h : (s.index.map IndexRow.article).Nodup) {p : Predicate}
    (hp : Each Runnable p) (owner : Int) (allowArchived : Bool) :
    ((s.joined allowArchived).filter fun r =>
      (Expr.both (ownedExpr owner) (.ofPredicate p)).isMet s r.scope) =
        s.matching owner allowArchived p := by
  refine List.filter_congr fun r _ => ?_
  rw [isMet_of_means (means_both (means_owned s r owner) (means_predicate h r hp)),
    Truth.holds_and, admits]
  cases decide (r.copy.owner = owner) <;> rfl

end Owners

end Newsfeed.Sql
