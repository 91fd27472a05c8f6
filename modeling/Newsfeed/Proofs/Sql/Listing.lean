import Newsfeed.Proofs.Sql.Select
import Newsfeed.Proofs.Store.Sound
import Newsfeed.Sql.Listing

/-!
The statements of a listing as they are read: each selects from the joined tables what its owner has
and its filter lets pass.
-/

namespace Newsfeed.Sql

open Newsfeed.Reading

/-! ### The texts around a condition -/

/-- The results, up to the tables. -/
def Opens (w : String) : Prop :=
  ∃ ts, Writes (fun _ => True) [.text w] (ts ++ [.keyword .source]) ∧ .keyword .source ∉ ts

/-- A result, or a part of an order. -/
def IsPlain (w : String) : Prop :=
  ∃ ts, Writes (Ends '\'') [.text w] ts ∧ .keyword .source ∉ ts

/-- What may stand behind a condition. -/
def Closes (s : Statement) : Prop :=
  Ends '\'' s.sql.toList ∧ ∃ ts, Writes (Ends '\'') s ts ∧ Select.isClosed ts

section Texts

theorem isPlain_of_stands {w : String} (h : Stands '\'' w.toList)
    (hts : (bound? (lex '\'' w.toList) []).any fun ts => .keyword .source ∉ ts) : IsPlain w := by
  cases hbound : bound? (lex '\'' w.toList) [] with
  | none =>
    rw [hbound] at hts
    cases hts
  | some ts =>
    rw [hbound, Option.any_some, decide_eq_true_eq] at hts
    exact ⟨ts, writes_stands h hbound, hts⟩

/-- Two texts with a separator between them. -/
theorem IsPlain.apart {v w separator : String} (hv : IsPlain v) (hw : IsPlain w)
    {ts : List Token} (h : Writes (fun _ => True) [.text separator] ts)
    (hnone : .keyword .source ∉ ts) (hends : Ends '\'' separator.toList)
    (hne : separator.toList ≠ []) : IsPlain (v ++ separator ++ w) := by
  obtain ⟨us, hus, hv⟩ := hv
  obtain ⟨ws, hws, hw⟩ := hw
  have hfirst := writes_text_append (hus.append h fun rest _ => by
    rw [sql_piece]
    exact hends.append hne rest)
  have hall := writes_text_append (hfirst.append hws fun _ _ => trivial)
  exact ⟨us ++ ts ++ ws, hall, by simp [hv, hnone, hw]⟩

theorem isPlain_commas {w : String} {ws : List String} (h : ∀ v ∈ w :: ws, IsPlain v) :
    IsPlain (String.intercalate ", " (w :: ws)) := by
  have hcomma : Writes (fun _ => True) [.text ", "] [.comma] :=
    writes_parts (by decide) (by decide)
  induction ws generalizing w with
  | nil =>
    rw [String.intercalate_singleton]
    exact h w List.mem_cons_self
  | cons v ws ih =>
    have hrest := ih fun u hu => h u (List.mem_cons_of_mem w hu)
    rw [String.intercalate_cons_cons]
    exact (h w List.mem_cons_self).apart hrest hcomma (by decide) (by decide) (by decide)

theorem isPlain_rowColumns (includeContent : Bool) :
    ∀ w ∈ rowColumns includeContent, IsPlain w := by
  have hall : ∀ b : Bool, ∀ w ∈ rowColumns b, Stands '\'' w.toList ∧
      (bound? (lex '\'' w.toList) []).any fun ts => .keyword .source ∉ ts := by
    decide +kernel
  intro w hw
  exact isPlain_of_stands (hall _ w hw).1 (hall _ w hw).2

theorem isPlain_sortKey (k : SortKey) :
    IsPlain (sortColumnName k.column ++ " " ++ directionName k.direction) := by
  have hcolumn : IsPlain (sortColumnName k.column) := by
    cases k.column <;> exact isPlain_of_stands (by decide +kernel) (by decide +kernel)
  have hdirection : IsPlain (directionName k.direction) := by
    cases k.direction <;> exact isPlain_of_stands (by decide +kernel) (by decide +kernel)
  have hspace : Writes (fun _ => True) [.text " "] [] := writes_parts (by decide) (by decide)
  exact hcolumn.apart hdirection hspace (by decide) (by decide) (by decide)

theorem isPlain_order (o : SortOrder) : IsPlain (orderText o) := by
  have hlast : IsPlain "e.id DESC" := isPlain_of_stands (by decide +kernel) (by decide +kernel)
  have hall : ∀ w ∈ o.keys.map (fun k => sortColumnName k.column ++ " " ++
      directionName k.direction) ++ ["e.id DESC"], IsPlain w := by
    intro w hw
    rcases List.mem_append.mp hw with hw | hw
    · obtain ⟨k, -, rfl⟩ := List.mem_map.mp hw
      exact isPlain_sortKey k
    · rw [List.mem_singleton.mp hw]
      exact hlast
  rw [orderText]
  obtain ⟨w, ws, hws⟩ := List.exists_cons_of_ne_nil
    (List.append_ne_nil_of_right_ne_nil (o.keys.map fun k => sortColumnName k.column ++ " " ++
      directionName k.direction) (List.cons_ne_nil "e.id DESC" []))
  rw [hws] at hall ⊢
  exact isPlain_commas hall

theorem opens_results (distinct includeContent : Bool) :
    Opens ("SELECT " ++ (if distinct then "DISTINCT " else "") ++
      String.intercalate ", " (rowColumns includeContent) ++ " FROM ") := by
  obtain ⟨columns, hcolumns, hplain⟩ : IsPlain (String.intercalate ", "
      (rowColumns includeContent)) := isPlain_commas (isPlain_rowColumns includeContent)
  obtain ⟨start, hstart, hnone⟩ : ∃ ts, Writes (fun _ => True)
      [.text ("SELECT " ++ (if distinct then "DISTINCT " else ""))] ts ∧ .keyword .source ∉ ts := by
    cases distinct with
    | false => exact ⟨[.keyword .select], writes_parts (by decide +kernel) (by decide +kernel),
        by decide⟩
    | true => exact ⟨[.keyword .select, .keyword .distinct],
        writes_parts (by decide +kernel) (by decide +kernel), by decide⟩
  have hfrom : Writes (fun _ => True) [.text " FROM "] [.keyword .source] :=
    writes_parts (by decide +kernel) (by decide +kernel)
  have hresults := writes_text_append (hstart.append hcolumns fun _ _ => trivial)
  have hall := writes_text_append (hresults.append hfrom fun rest _ => by
    rw [sql_piece]
    exact Ends.append (by decide) (by decide) rest)
  exact ⟨start ++ columns, hall, by simp [hnone, hplain]⟩

theorem ends_append {cs rest : List Char} (h : Ends '\'' cs) (hrest : Ends '\'' rest) :
    Ends '\'' (cs ++ rest) := by
  cases cs with
  | nil => exact hrest
  | cons c cs => exact h.append (List.cons_ne_nil c cs) rest

/-- An order with a window behind it. -/
theorem closes_order (o : SortOrder) {window : Statement} {ts : List Token}
    (h : Writes (Ends '\'') window ts) (hends : Ends '\'' window.sql.toList) :
    Closes ([.text (" ORDER BY " ++ orderText o)] ++ window) := by
  obtain ⟨us, hus, -⟩ := isPlain_order o
  have horder : Writes (fun _ => True) [.text " ORDER BY "] [.keyword .order, .name "BY".toList] :=
    writes_parts (by decide +kernel) (by decide +kernel)
  have htext := writes_text_append (horder.append hus fun _ _ => trivial)
  refine ⟨?_, _, htext.append h fun rest hrest => ends_append hends hrest, rfl⟩
  rw [sql_append, sql_piece, Piece.sql, String.toList_append, List.append_assoc]
  exact Ends.append (by decide) (by decide) _

theorem writes_nil : Writes (fun _ => True) [] [] := by
  refine ⟨[], fun rest _ => ?_, rfl⟩
  simp [Statement.sql]

theorem ends_text {w : String} (h : Ends '\'' w.toList) (hne : w.toList ≠ []) (s : Statement) :
    Ends '\'' (Statement.sql ([.text w] ++ s)).toList := by
  rw [sql_append, sql_piece]
  exact h.append hne _

theorem exists_window (limit : Option Int) (offset : Int) :
    ∃ ts, Writes (Ends '\'') (pageWindow limit offset) ts ∧
      Ends '\'' (pageWindow limit offset).sql.toList := by
  have hlimit : Writes (fun _ => True) [.text " LIMIT "] [.keyword .limit] :=
    writes_parts (by decide +kernel) (by decide +kernel)
  have hoffset : Writes (fun _ => True) [.text " OFFSET "] [.name "OFFSET".toList] :=
    writes_parts (by decide +kernel) (by decide +kernel)
  have hall : Writes (fun _ => True) [.text " LIMIT -1 OFFSET "]
      [.keyword .limit, .stray '-', .number 1, .name "OFFSET".toList] :=
    writes_parts (by decide +kernel) (by decide +kernel)
  cases limit with
  | some limit =>
    exact ⟨_, (writes_cons_text hlimit (writes_cons_param _ (writes_cons_text hoffset
      (writes_param _)))).mono fun _ _ => trivial, ends_text (by decide) (by decide) _⟩
  | none =>
    by_cases hoffset : 0 < offset
    · rw [pageWindow, if_pos hoffset]
      exact ⟨_, (writes_cons_text hall (writes_param _)).mono fun _ _ => trivial,
        ends_text (by decide) (by decide) _⟩
    · rw [pageWindow, if_neg hoffset]
      exact ⟨_, writes_nil.mono fun _ _ => trivial, ends_nil⟩

end Texts

/-! ### Reading -/

section Reading

def tableTokens (allowArchived : Bool) : List Token :=
  [.name "entries".toList, .name "e".toList, .keyword .join, .name "user_entries".toList,
    .name "ue".toList, .keyword .on, .name "ue".toList, .dot, .name "ref_id".toList, .equals,
    .name "e".toList, .dot, .name "id".toList] ++
  (if allowArchived then [.keyword .left, .keyword .join] else [.keyword .join]) ++
  [.name "feeds".toList, .name "f".toList, .keyword .on, .name "f".toList, .dot,
    .name "id".toList, .equals, .name "ue".toList, .dot, .name "feed_id".toList]

theorem writes_tables (allowArchived : Bool) :
    Writes (Ends '\'') [.text (tables allowArchived)] (tableTokens allowArchived) := by
  have hfirst : Writes (fun _ => True)
      [.text "entries e JOIN user_entries ue ON ue.ref_id = e.id "]
      [.name "entries".toList, .name "e".toList, .keyword .join, .name "user_entries".toList,
        .name "ue".toList, .keyword .on, .name "ue".toList, .dot, .name "ref_id".toList, .equals,
        .name "e".toList, .dot, .name "id".toList] :=
    writes_parts (by decide +kernel) (by decide +kernel)
  have hjoin : Writes (Ends '\'') [.text (if allowArchived then "LEFT JOIN" else "JOIN")]
      (if allowArchived then [.keyword .left, .keyword .join] else [.keyword .join]) := by
    cases allowArchived <;> exact writes_stands (by decide +kernel) (by decide +kernel)
  have hfeeds : Writes (Ends '\'') [.text " feeds f ON f.id = ue.feed_id"]
      [.name "feeds".toList, .name "f".toList, .keyword .on, .name "f".toList, .dot,
        .name "id".toList, .equals, .name "ue".toList, .dot, .name "feed_id".toList] :=
    writes_stands (by decide +kernel) (by decide +kernel)
  have hstart := writes_text_append (hfirst.append hjoin fun _ _ => trivial)
  exact writes_text_append (hstart.append hfeeds fun rest _ => by
    rw [sql_piece]
    exact Ends.append (by decide) (by decide) rest)

theorem sources_tables (allowArchived : Bool) (n : Nat) (rest : List Token) :
    sources (expression (n + 1)) (tableTokens allowArchived ++ .keyword .whose :: rest) =
      some ((⟨"entries".toList, "e".toList⟩, [copiesOfArticles, feedsOfCopies allowArchived]),
        .keyword .whose :: rest) := by
  cases allowArchived <;> rfl

/-- A condition before a filter, with no brackets around the filter. -/
theorem readsWhole_both {ts us : List Token} {e d : Expr} (h : ReadsAs ts e) (h' : ReadsAs us d) :
    ReadsWhole (ts ++ [.keyword .and] ++ us) (.both e d) := by
  have hparts : ∀ y ∈ [(ts, e), (us, d)], ReadsAs y.1 y.2 := by
    intro y hy
    rcases List.mem_cons.mp hy with rfl | hy
    · exact h
    · rw [List.mem_singleton.mp hy]
      exact h'
  have hread := readsWhole_all hparts
  have htokens : [.keyword .and].intercalate ([(ts, e), (us, d)].map fun y => y.1) =
      ts ++ [.keyword .and] ++ us := by simp
  rw [htokens] at hread
  exact hread

theorem ownedBy_reads (owner : Int) (p : Predicate) :
    ∃ ts, Writes (Ends '\'') (ownedBy owner p) ts ∧
      ReadsWhole ts (.both (ownedExpr owner) (.ofPredicate p)) := by
  obtain ⟨ts, hts, hread⟩ := condition_renders p
  have howner : Writes (fun _ => True) [.text "ue.owner_uid = "]
      [.name "ue".toList, .dot, .name "owner_uid".toList, .equals] :=
    writes_parts (by decide +kernel) (by decide +kernel)
  have hand : Writes (fun _ => True) [.text " AND "] [.keyword .and] :=
    writes_parts (by decide +kernel) (by decide +kernel)
  have howned : ReadsAs [.name "ue".toList, .dot, .name "owner_uid".toList, .equals,
      .value (.int owner)] (ownedExpr owner) :=
    readsAs_leaf (by simp) fun _ _ => ⟨rfl, rfl, rfl, rfl, rfl, rfl⟩
  have hwrites := writes_cons_text howner (writes_cons_param (.int owner)
    (writes_cons_text hand hts))
  exact ⟨_, hwrites, readsWhole_both howned hread⟩

theorem heads_of_isClosed {ts : List Token} (h : Select.isClosed ts) : Heads closers ts := by
  unfold Select.isClosed at h
  split at h
  · exact heads_nil closers
  · exact heads_cons (by decide) _
  · exact heads_cons (by decide) _
  · cases h

theorem ofTokens_listing {results ts more : List Token} {condition : Expr}
    (hnone : .keyword .source ∉ results) (hread : ReadsWhole ts condition)
    (hclosed : Select.isClosed more) (allowArchived : Bool) :
    Select.ofTokens? (results ++ .keyword .source :: (tableTokens allowArchived ++
      .keyword .whose :: (ts ++ more))) = some (ofListing allowArchived condition) := by
  generalize hall : results ++ .keyword .source :: (tableTokens allowArchived ++
    .keyword .whose :: (ts ++ more)) = tokens
  have hbehind : (tokens.dropWhile (· ≠ .keyword .source)).tail =
      tableTokens allowArchived ++ .keyword .whose :: (ts ++ more) := by
    have hresults : ∀ t ∈ results, decide (t ≠ .keyword .source) = true := by
      intro t ht
      exact decide_eq_true fun heq => hnone (heq ▸ ht)
    rw [← hall, List.dropWhile_append_of_pos hresults]
    rfl
  -- Brackets may be as deep as the whole statement is long, which is more than the condition needs.
  have hlength : ts.length < tokens.length + 1 := by
    rw [← hall]
    simp only [List.length_append, List.length_cons]
    omega
  have hcondition := hread (tokens.length + 1) hlength more (heads_of_isClosed hclosed)
  rw [Select.ofTokens?, hbehind, sources_tables]
  simp only [upTo, if_pos, Option.bind_eq_bind, Option.bind_some, hcondition, hclosed]
  rfl

/-- A listing with any results and anything behind its condition that may stand there. -/
theorem read_listing {start : String} {rest : Statement} (hstart : Opens start)
    (hrest : Closes rest) (owner : Int) (allowArchived : Bool) (p : Predicate) {s : Statement}
    (hs : s = [.text (start ++ tables allowArchived ++ " WHERE ")] ++ ownedBy owner p ++ rest) :
    Select.read? s.sql s.params =
      some (ofListing allowArchived (.both (ownedExpr owner) (.ofPredicate p))) := by
  obtain ⟨results, hresults, hnone⟩ := hstart
  obtain ⟨ts, hts, hread⟩ := ownedBy_reads owner p
  obtain ⟨hends, more, hmore, hclosed⟩ := hrest
  have hwhere : Writes (fun _ => True) [.text " WHERE "] [.keyword .whose] :=
    writes_parts (by decide +kernel) (by decide +kernel)
  have hopening := writes_text_append ((writes_text_append (hresults.append
    (writes_tables allowArchived) fun _ _ => trivial)).append hwhere fun rest _ => by
      rw [sql_piece]
      exact Ends.append (by decide) (by decide) rest)
  have hall := (hopening.append hts fun _ _ => trivial).append hmore fun rest hrest =>
    ends_append hends hrest
  rw [← hs] at hall
  obtain ⟨ls, hls, hbound⟩ := hall
  rw [Select.read?, tokens?, hls.lex_eq ends_nil, hbound, Option.bind_some]
  have htokens := ofTokens_listing hnone hread hclosed allowArchived
  simpa using htokens

end Reading

/-! ### What is selected -/

/-- The statements that read a listing, each with the owner that it is held to, whether it keeps
copies without a feed, and its filter. -/
inductive Asks : Int → Bool → Predicate → Statement → Prop
  | page (q : ListingQuery) : Asks q.owner q.allowArchived q.filter (page q)
  | firstId (q : ListingQuery) (since : Time.Instant) :
    Asks q.owner q.allowArchived (q.recentFilter since) (firstId q since)
  | count (owner : Int) (allowArchived : Bool) (filter : Predicate) :
    Asks owner allowArchived filter (count owner allowArchived filter)
  | trial (owner : Int) (filter : Predicate) : Asks owner true filter (trial owner filter)

section Statements

variable {owner : Int} {allowArchived : Bool} {p : Predicate} {s : Statement}

/-- They differ in their results and in what stands behind the condition. -/
theorem Asks.parts (h : Asks owner allowArchived p s) : ∃ start rest, Opens start ∧ Closes rest ∧
    s = [.text (start ++ tables allowArchived ++ " WHERE ")] ++ ownedBy owner p ++ rest := by
  have hlimit : Writes (Ends '\'') [.text " LIMIT 1"] [.keyword .limit, .number 1] :=
    writes_stands (by decide +kernel) (by decide +kernel)
  have hends : Ends '\'' (Statement.sql [.text " LIMIT 1"]).toList := by
    rw [sql_piece]
    decide
  cases h with
  | page q =>
    obtain ⟨ts, hts, hwindow⟩ := exists_window q.limit q.offset
    refine ⟨_, _, opens_results q.distinct q.includeContent, closes_order q.order hts hwindow, ?_⟩
    rw [Sql.page, List.append_assoc]
  | firstId q since =>
    have hopens : Opens "SELECT e.id FROM " :=
      ⟨[.keyword .select, .name "e".toList, .dot, .name "id".toList],
        writes_parts (by decide +kernel) (by decide +kernel), by decide⟩
    obtain ⟨hstart, ts, hts, hclosed⟩ := closes_order q.order hlimit hends
    have hone : Closes [.text (" ORDER BY " ++ orderText q.order ++ " LIMIT 1")] := by
      refine ⟨?_, ts, writes_text_append hts, hclosed⟩
      rw [sql_append, sql_piece, sql_piece] at hstart
      rw [sql_piece, Piece.sql, String.toList_append]
      exact hstart
    exact ⟨_, _, hopens, hone, rfl⟩
  | count =>
    have hopens : Opens "SELECT COUNT(DISTINCT ue.int_id) FROM " :=
      ⟨[.keyword .select, .name "COUNT".toList, .opening, .keyword .distinct, .name "ue".toList,
        .dot, .name "int_id".toList, .closing],
        writes_parts (by decide +kernel) (by decide +kernel), by decide⟩
    refine ⟨_, [], hopens, ⟨ends_nil, [], writes_nil.mono fun _ _ => trivial, rfl⟩, ?_⟩
    rw [Sql.count, List.append_nil]
  | trial =>
    have hopens : Opens "SELECT 1 FROM " :=
      ⟨[.keyword .select, .number 1], writes_parts (by decide +kernel) (by decide +kernel),
        by decide⟩
    exact ⟨_, _, hopens, ⟨hends, _, hlimit, rfl⟩, rfl⟩

open Predicate

/-- The text of a filter, read with the values that are handed over beside it, is as true of each
row as the filter is. The statements of a listing hand over the owner first, and select rows of that
owner only, whatever the filter is: those that it lets pass. -/
theorem rendering_preserves_meaning (p : Predicate) :
    (Each Runnable p → ∃ e, Expr.read? (condition p).sql (condition p).params = some e ∧
      ∀ s : Store, s.Sound → ∀ r : Joined,
        e.value? s r.scope = some (ofTruth (p.truth (s.facts r)))) ∧
    ∀ owner allowArchived statement, Asks owner allowArchived p statement →
      statement.params.head? = some (.int owner) ∧
      ∃ q, Select.read? statement.sql statement.params = some q ∧
        ∀ s : Store, ∃ rows : List Joined, q.rows? s = some (rows.map Joined.scope) ∧
          (∀ r ∈ rows, r ∈ s.joined allowArchived ∧ r.copy.owner = owner) ∧
          (Each Runnable p → s.Sound → rows = s.matching owner allowArchived p) := by
  constructor
  · intro hp
    obtain ⟨ts, ⟨ls, hls, hbound⟩, hread⟩ := condition_renders p
    have hwhole := hread.whole (ts.length + 1) (Nat.lt_succ_self _) [] (heads_nil closers)
    rw [List.append_nil] at hwhole
    refine ⟨.ofPredicate p, ?_, fun s hs r => means_predicate hs.index r hp⟩
    rw [Expr.read?, tokens?, hls.lex_eq ends_nil, hbound, Option.bind_some, Expr.ofTokens?, hwhole]
  · intro owner allowArchived statement hasks
    obtain ⟨start, rest, hstart, hrest, hstatement⟩ := hasks.parts
    refine ⟨?_, _, read_listing hstart hrest owner allowArchived p hstatement, fun s => ?_⟩
    · rw [hstatement]
      rfl
    · refine ⟨_, rows_ofListing s allowArchived _, ?_, fun hp hs =>
        filter_isMet hs.index hp owner allowArchived⟩
      intro r hr
      obtain ⟨hjoined, hmet⟩ := List.mem_filter.mp hr
      exact ⟨hjoined, owner_of_isMet hmet⟩

end Statements

/-- Two owners with a copy of one article each. -/
def foxStore : Store :=
  Store.ofHistory [
    .addArticle ⟨"red", "Red Fox", none, "", none, 0, ⟨1715342400, 0⟩, ⟨1715342400, 0⟩⟩
      ⟨1, none, true, false, false, none, none, none, none, "", ""⟩,
    .addArticle ⟨"grey", "Grey Fox", none, "", none, 0, ⟨1715342400, 0⟩, ⟨1715342400, 0⟩⟩
      ⟨2, none, true, false, false, none, none, none, none, "", ""⟩]

/-- An article is about foxes, or is read and has no score. -/
def foxFilter : Predicate :=
  .disj [.contains .title "FOX", .no (.disj [.compare .unread .eq (.bool true), .notNull .score])]

def foxListing : ListingQuery :=
  { owner := 1, allowArchived := true, filter := foxFilter, order := .standard, distinct := false
    includeContent := false, limit := none, offset := 0 }

/-- The filter is true of both articles, and its owner's is the one that is selected. -/
theorem rendering_preserves_meaning_of_foxes :
    foxStore.Sound ∧ Predicate.Each Predicate.Runnable foxFilter ∧
      (∃ e, Expr.read? (condition foxFilter).sql (condition foxFilter).params = some e ∧
        ∀ r ∈ foxStore.joined true, e.value? foxStore r.scope = some (.int 1)) ∧
      ∃ (q : Select) (rows : List Joined),
        Select.read? (page foxListing).sql (page foxListing).params = some q ∧
        q.rows? foxStore = some (rows.map Joined.scope) ∧ rows.length = 1 := by
  have hsound : foxStore.Sound := Store.Reachable.sound ⟨_, rfl⟩
  have hrun : Predicate.Each Predicate.Runnable foxFilter := by
    intro a ha
    simp only [foxFilter, Predicate.atoms, Predicate.atomsOfAll, List.append_nil,
      List.singleton_append, List.mem_cons, List.not_mem_nil, or_false] at ha
    rcases ha with rfl | rfl | rfl
    · rfl
    · trivial
    · trivial
  have htrue : ∀ r ∈ foxStore.joined true, foxFilter.truth (foxStore.facts r) = some true := by
    decide +kernel
  obtain ⟨hmeaning, hstatements⟩ := rendering_preserves_meaning foxFilter
  obtain ⟨e, hread, hvalue⟩ := hmeaning hrun
  obtain ⟨-, q, hq, hrows⟩ := hstatements 1 true _ (.page foxListing)
  obtain ⟨rows, hselected, -, hmatching⟩ := hrows foxStore
  refine ⟨hsound, hrun, ⟨e, hread, fun r hr => ?_⟩, q, rows, hq, hselected, ?_⟩
  · rw [hvalue foxStore hsound r, htrue r hr]
    rfl
  · rw [hmatching hrun hsound]
    decide +kernel

end Newsfeed.Sql
