import Newsfeed.Proofs.FullText.Spelling
import Newsfeed.Proofs.Sql.Grammar
import Newsfeed.Sql.Filter

/-!
The text of a condition is read as an expression of the same structure as the filter. What a part
is read as does not depend on its place: it stands in brackets, or binds tighter than what is around
it.
-/

namespace Newsfeed.Sql

open Newsfeed.FullText (MatchTree)

open Newsfeed.Reading

/-! ### Expressions of filters -/

/-- The table and the name of a column. -/
def place : Column → Name × Name
  | .entryId => ("e".toList, "id".toList)
  | .title => ("e".toList, "title".toList)
  | .content => ("e".toList, "content".toList)
  | .author => ("e".toList, "author".toList)
  | .score => ("e".toList, "score".toList)
  | .dateEntered => ("e".toList, "date_entered".toList)
  | .updated => ("e".toList, "updated".toList)
  | .unread => ("ue".toList, "unread".toList)
  | .marked => ("ue".toList, "marked".toList)
  | .published => ("ue".toList, "published".toList)
  | .note => ("ue".toList, "note".toList)
  | .feedId => ("ue".toList, "feed_id".toList)
  | .categoryId => ("f".toList, "cat_id".toList)
  | .lastRead => ("ue".toList, "last_read".toList)
  | .lastMarked => ("ue".toList, "last_marked".toList)
  | .lastPublished => ("ue".toList, "last_published".toList)

namespace Expr

def ofColumn (c : Column) : Expr := .column (some (place c).1) (place c).2

def ofComparison (op : Comparison) (a b : Expr) : Expr :=
  match op with
  | .eq => .compare .eq a b
  | .isNot => .no (.same a b)
  | .lt => .compare .lt a b
  | .le => .compare .le a b
  | .gt => .compare .gt a b
  | .ge => .compare .ge a b

/-- Operands are grouped to the left. -/
def fold (join : Expr → Expr → Expr) : List Expr → Expr
  | [] => .value .null
  | e :: es => es.foldl join e

/-- The value is in a column of a table, in a row that the condition holds for. -/
def inTable (a : Expr) (table column : String) (condition : Expr) : Expr :=
  .among a (.column none column.toList) [⟨table.toList, table.toList⟩] condition

def equals (column : String) (p : Param) : Expr :=
  .compare .eq (.column none column.toList) (.value p.cell)

mutual

def ofMatch : MatchTree → Expr
  | .expr e => .inTable (ofColumn .entryId) "entries_fts" "rowid"
    (.answers "entries_fts".toList (.value (.text e.text)))
  | .all parts => fold .both (ofMatches parts)
  | .any parts => fold .either (ofMatches parts)
  | .no part => .no (ofMatch part)

def ofMatches : List MatchTree → List Expr
  | [] => []
  | t :: ts => ofMatch t :: ofMatches ts

end

def ofFullText (language query : String) : Expr :=
  match FullText.compile language query with
  | .ok tree => ofMatch tree
  | .error _ => .compare .eq
    (.call "ts_check".toList [.value (.text language), .value (.text query)]) (.value (.int 1))

def ofList (c : Column) (values : List Int) : Expr :=
  if values = [] then .value (.int 0)
  else .oneOf (ofColumn c) (values.map fun n => .value (.int n))

/-- The article has a label of the owner. -/
def ofOwner (owner : Int) : Expr :=
  .among (ofColumn .entryId) (.column (some "ul".toList) "article_id".toList)
    [⟨"user_labels".toList, "ul".toList⟩, ⟨"labels".toList, "l".toList⟩]
    (.both (.compare .eq (.column (some "l".toList) "id".toList)
        (.column (some "ul".toList) "label_id".toList))
      (.compare .eq (.column (some "l".toList) "owner_uid".toList) (.value (.int owner))))

mutual

def ofPredicate : Predicate → Expr
  | .always => .value (.int 1)
  | .never => .value (.int 0)
  | .conj [] => .value (.int 1)
  | .disj [] => .value (.int 0)
  | .conj (p :: ps) => fold .both (ofPredicate p :: ofPredicates ps)
  | .disj (p :: ps) => fold .either (ofPredicate p :: ofPredicates ps)
  | .no inner => .no (ofPredicate inner)
  | .compare c op v => ofComparison op (ofColumn c) (.value (valueParam v).cell)
  | .isNull c => .same (ofColumn c) (.value .null)
  | .notNull c => .no (.same (ofColumn c) (.value .null))
  | .contains c needle => .like (.call "unicode_lower".toList [ofColumn c])
    (.value (.text (likePattern needle))) (.value (.text "\\"))
  | .inList c values => ofList c values
  | .startsWith c start => .compare .eq
    (.call "SUBSTR".toList [ofColumn c, .value (.int 1), .value (.int start.length)])
    (.value (.text start))
  | .label id => .inTable (ofColumn .entryId) "user_labels" "article_id"
    (equals "label_id" (.int id))
  | .labelOf owner => ofOwner owner
  | .tag owner name => .inTable (.column (some "ue".toList) "int_id".toList) "tags" "post_int_id"
    (.both (equals "owner_uid" (.int owner)) (equals "tag_name" (.text name)))
  | .fullText language query => ofFullText language query

def ofPredicates : List Predicate → List Expr
  | [] => []
  | p :: ps => ofPredicate p :: ofPredicates ps

end

end Expr

/-! ### Tokens of statements -/

theorem bound_append {ls ms : List Lexeme} {ps qs : List Param} {ts us : List Token}
    (h : bound? ls ps = some ts) (h' : bound? ms qs = some us) :
    bound? (ls ++ ms) (ps ++ qs) = some (ts ++ us) := by
  induction ls generalizing ps ts with
  | nil =>
    rw [bound?] at h
    split at h
    · rename_i hps
      rw [← Option.some.inj h, List.isEmpty_iff.mp hps]
      exact h'
    · cases h
  | cons l ls ih =>
    rw [bound?] at h
    rw [List.cons_append, bound?]
    by_cases hl : l = .sign '?'
    · rw [if_pos hl] at h ⊢
      obtain ⟨p, hp, hrest⟩ := Option.bind_eq_some_iff.mp h
      obtain ⟨ts', hts', rfl⟩ := Option.map_eq_some_iff.mp hrest
      obtain ⟨ps, rfl⟩ := List.head?_eq_some_iff.mp hp
      have hmore := ih hts'
      simp only [List.tail_cons] at hmore
      simp [hmore]
    · rw [if_neg hl] at h ⊢
      obtain ⟨t, ht, hrest⟩ := Option.bind_eq_some_iff.mp h
      obtain ⟨ts', hts', rfl⟩ := Option.map_eq_some_iff.mp hrest
      simp [ht, ih hts']

/-- The piece of a statement is taken for these tokens, whatever comes after it. -/
def Writes (tail : List Char → Prop) (s : Statement) (ts : List Token) : Prop :=
  ∃ ls, Lexes '\'' tail s.sql.toList ls ∧ bound? ls s.params = some ts

theorem sql_append (s t : Statement) : (s ++ t).sql.toList = s.sql.toList ++ t.sql.toList := by
  simp [Statement.sql, String.toList_join]

theorem sql_piece (p : Piece) : Statement.sql [p] = p.sql := by
  rw [← String.toList_inj, Statement.sql, String.toList_join]
  simp

section Writing

variable {tail tail' : List Char → Prop} {s t : Statement} {ts us : List Token} {w : String}

theorem Writes.append (h : Writes tail s ts) (h' : Writes tail' t us)
    (htail : ∀ rest, tail' rest → tail (t.sql.toList ++ rest)) :
    Writes tail' (s ++ t) (ts ++ us) := by
  obtain ⟨ls, hls, hts⟩ := h
  obtain ⟨ms, hms, hus⟩ := h'
  refine ⟨ls ++ ms, ?_, ?_⟩
  · rw [sql_append]
    exact hls.append hms htail
  · rw [Statement.params, List.filterMap_append]
    exact bound_append hts hus

theorem Writes.mono (h : Writes tail s ts) (htail : ∀ rest, tail' rest → tail rest) :
    Writes tail' s ts := by
  obtain ⟨ls, hls, hts⟩ := h
  exact ⟨ls, hls.mono htail, hts⟩

theorem writes_parts (h : Parts '\'' w.toList) (hts : bound? (lex '\'' w.toList) [] = some ts) :
    Writes (fun _ => True) [.text w] ts := by
  refine ⟨_, ?_, hts⟩
  rw [sql_piece]
  exact lexes_of_parts h

theorem writes_stands (h : Stands '\'' w.toList) (hts : bound? (lex '\'' w.toList) [] = some ts) :
    Writes (Ends '\'') [.text w] ts := by
  refine ⟨_, ?_, hts⟩
  rw [sql_piece]
  exact lexes_of_stands h

theorem writes_param (p : Param) : Writes (fun _ => True) [.param p] [.value p] := by
  have hmark : Lexes '\'' (fun _ => True) ['?'] [.sign '?'] := lexes_of_parts (by decide)
  have hchars : (Piece.param p).sql.toList = ['?'] := by
    rw [Piece.sql]
    decide
  refine ⟨[.sign '?'], ?_, rfl⟩
  rwa [sql_piece, hchars]

theorem writes_text_append {v w : String} (h : Writes tail ([.text v] ++ [.text w]) ts) :
    Writes tail [.text (v ++ w)] ts := by
  obtain ⟨ls, hls, hts⟩ := h
  refine ⟨ls, ?_, hts⟩
  have hsql : (Statement.sql [.text (v ++ w)]).toList =
      (Statement.sql ([.text v] ++ [.text w])).toList := by
    rw [sql_append, sql_piece, sql_piece, sql_piece]
    exact String.toList_append
  rwa [hsql]

theorem writes_cons_text (h : Writes (fun _ => True) [.text w] ts) (hs : Writes tail s us) :
    Writes tail (.text w :: s) (ts ++ us) := h.append hs fun _ _ => trivial

theorem writes_cons_param (p : Param) (hs : Writes tail s us) :
    Writes tail (.param p :: s) (.value p :: us) :=
  (writes_param p).append hs fun _ _ => trivial

/-- A value with text behind it. -/
theorem writes_param_text (p : Param) (h : Writes tail [.text w] ts) :
    Writes tail [.param p, .text w] (.value p :: ts) := writes_cons_param p h

def columnTokens (c : Column) : List Token := [.name (place c).1, .dot, .name (place c).2]

theorem writes_column (c : Column) :
    Writes (Ends '\'') [.text (columnName c)] (columnTokens c) := by
  cases c <;> exact writes_stands (by decide +kernel) (by decide +kernel)

/-- A column with text behind it. -/
theorem writes_column_text (c : Column) (hends : Ends '\'' w.toList) (hne : w.toList ≠ [])
    (h : Writes tail [.text w] ts) :
    Writes tail [.text (columnName c ++ w)] (columnTokens c ++ ts) := by
  refine writes_text_append ((writes_column c).append h fun rest _ => ?_)
  rw [sql_piece]
  exact hends.append hne rest

end Writing

/-! ### Reading -/

/-- Tokens before which a condition ends. -/
def closers : List Token := [.closing, .keyword .order, .keyword .limit]

/-- Tokens before which something ends that binds as loosely as NOT. -/
def breakers : List Token := .keyword .and :: .keyword .or :: closers

/-- The tokens are read as the expression, where something that binds as loosely as NOT may
stand. -/
def ReadsAs (ts : List Token) (e : Expr) : Prop :=
  ∀ n, ts.length ≤ n → Reads (negation (expression n)) (Heads breakers) ts e

/-- The tokens are read as the expression, where a whole condition may stand. -/
def ReadsWhole (ts : List Token) (e : Expr) : Prop :=
  ∀ n, ts.length < n → Reads (expression n) (Heads closers) ts e

section Reading

variable {ts us : List Token} {e d : Expr}

theorem breakers_elim {P : List Token → Prop} {rest : List Token} (h : Heads breakers rest)
    (hnil : P []) (hand : ∀ more, P (.keyword .and :: more))
    (hor : ∀ more, P (.keyword .or :: more)) (hclosing : ∀ more, P (.closing :: more))
    (horder : ∀ more, P (.keyword .order :: more))
    (hlimit : ∀ more, P (.keyword .limit :: more)) : P rest := by
  cases rest with
  | nil => exact hnil
  | cons t more =>
    have ht := h t rfl
    simp only [breakers, closers, List.mem_cons, List.not_mem_nil, or_false] at ht
    rcases ht with rfl | rfl | rfl | rfl | rfl
    · exact hand more
    · exact hor more
    · exact hclosing more
    · exact horder more
    · exact hlimit more

theorem readsWhole_of_levels
    (h : ∀ n, ts.length ≤ n → Reads (disjunction (expression n)) (Heads closers) ts e) :
    ReadsWhole ts e := by
  intro n hn
  obtain ⟨n, rfl⟩ := Nat.exists_eq_add_one.mpr (Nat.lt_of_le_of_lt (Nat.zero_le _) hn)
  exact h n (Nat.le_of_lt_succ hn)

theorem ReadsAs.whole (h : ReadsAs ts e) : ReadsWhole ts e :=
  readsWhole_of_levels fun n hn => by
    have hneg : Reads (negation (expression n)) (Heads closers) ts e :=
      (h n hn).mono fun _ hrest => hrest.mono (by simp [breakers])
    exact chain_of_reads (chain_of_reads hneg (by decide)) (by decide)

/-- A condition in brackets may stand anywhere. -/
theorem ReadsWhole.bracketed (h : ReadsWhole ts e) :
    ReadsAs ([.opening] ++ ts ++ [.closing]) e := by
  intro n hn rest hrest
  have hlength : ts.length < n := by
    simp only [List.length_append, List.length_singleton] at hn
    omega
  have hoperand : Reads (operand (expression n)) (Heads breakers)
      ([.opening] ++ ts ++ [.closing]) e := by
    intro rest _
    have hinner := h n hlength (.closing :: rest) (heads_cons (by decide) rest)
    rw [List.append_assoc, List.append_assoc, List.singleton_append, List.singleton_append,
      operand, hinner, upTo, if_pos rfl]
  -- Behind the bracket neither level goes on: none of its operators may come next.
  have hrelation : ∀ rest, Heads breakers rest → relationStep (expression n) e rest = none := by
    intro rest hrest
    apply breakers_elim (P := fun rest => relationStep (expression n) e rest = none) hrest <;>
      intros <;> rfl
  have hequality : ∀ rest, Heads breakers rest → equalityStep (expression n) e rest = none := by
    intro rest hrest
    apply breakers_elim (P := fun rest => equalityStep (expression n) e rest = none) hrest <;>
      intros <;> rfl
  exact chain_reads_one (chain_reads_one hoperand hrelation) hequality rest hrest

theorem ReadsWhole.no (h : ReadsWhole ts e) :
    ReadsAs ([.keyword .not, .opening] ++ ts ++ [.closing]) (.no e) := by
  intro n hn rest hrest
  have hbracketed := h.bracketed n (by
    simp only [List.length_append, List.length_cons, List.length_nil] at hn ⊢
    omega) rest hrest
  have htokens : [.keyword .not, .opening] ++ ts ++ [.closing] ++ rest =
      .keyword .not :: ([.opening] ++ ts ++ [.closing] ++ rest) := by simp
  rw [htokens, negation, hbracketed]
  rfl

section Items

variable {β : Type} {tokens : β → List Token} {expr : β → Expr} {x : β} {xs : List β}

theorem readsWhole_all (h : ∀ y ∈ x :: xs, ReadsAs (tokens y) (expr y)) :
    ReadsWhole ([.keyword .and].intercalate ((x :: xs).map tokens))
      (Expr.fold .both ((x :: xs).map expr)) :=
  readsWhole_of_levels fun n hn => by
    have hparts : ∀ y ∈ x :: xs, Reads (negation (expression n))
        (Heads (.keyword .and :: closers)) (tokens y) (expr y) := fun y hy =>
      (h y hy n (Nat.le_trans (length_le_intercalate hy) hn)).mono fun _ hrest =>
        hrest.mono (by simp [breakers])
    exact chain_of_reads (chain_of_items rfl hparts (by decide)) (by decide)

theorem readsWhole_any (h : ∀ y ∈ x :: xs, ReadsAs (tokens y) (expr y)) :
    ReadsWhole ([.keyword .or].intercalate ((x :: xs).map tokens))
      (Expr.fold .either ((x :: xs).map expr)) :=
  readsWhole_of_levels fun n hn => by
    have hparts : ∀ y ∈ x :: xs, Reads (conjunction (expression n))
        (Heads (.keyword .or :: closers)) (tokens y) (expr y) := fun y hy =>
      chain_of_reads ((h y hy n (Nat.le_trans (length_le_intercalate hy) hn)).mono fun _ hrest =>
        hrest.mono (by simp [breakers])) (by decide)
    exact chain_of_items rfl hparts (by decide)

end Items

/-- Something without conditions inside, which is read in the same way before each token that ends
it. -/
theorem readsAs_leaf (hts : ts ≠ []) (h : ∀ n more,
      negation (expression (n + 1)) (ts ++ []) = some (e, []) ∧
      negation (expression (n + 1)) (ts ++ .keyword .and :: more) =
        some (e, .keyword .and :: more) ∧
      negation (expression (n + 1)) (ts ++ .keyword .or :: more) =
        some (e, .keyword .or :: more) ∧
      negation (expression (n + 1)) (ts ++ .closing :: more) = some (e, .closing :: more) ∧
      negation (expression (n + 1)) (ts ++ .keyword .order :: more) =
        some (e, .keyword .order :: more) ∧
      negation (expression (n + 1)) (ts ++ .keyword .limit :: more) =
        some (e, .keyword .limit :: more)) : ReadsAs ts e := by
  intro n hn rest hrest
  have hpos := List.length_pos_iff.mpr hts
  obtain ⟨n, rfl⟩ := Nat.exists_eq_add_one.mpr (Nat.lt_of_lt_of_le hpos hn)
  exact breakers_elim (P := fun rest => negation (expression (n + 1)) (ts ++ rest) =
    some (e, rest)) hrest (h n []).1 (fun more => (h n more).2.1) (fun more => (h n more).2.2.1)
      (fun more => (h n more).2.2.2.1) (fun more => (h n more).2.2.2.2.1)
      fun more => (h n more).2.2.2.2.2

end Reading

/-! ### Conditions -/

/-- The condition is read as the expression. -/
def Renders (s : Statement) (e : Expr) : Prop :=
  ∃ ts, Writes (Ends '\'') s ts ∧ ReadsAs ts e

def comparisonTokens : Comparison → List Token
  | .eq => [.equals]
  | .isNot => [.keyword .is, .keyword .not]
  | .lt => [.less]
  | .le => [.less, .equals]
  | .gt => [.greater]
  | .ge => [.greater, .equals]

theorem renders_literal {w : String} {n : Nat} (h : Writes (Ends '\'') [.text w] [.number n]) :
    Renders [.text w] (.value (.int n)) :=
  ⟨_, h, readsAs_leaf (by simp) fun _ _ => ⟨rfl, rfl, rfl, rfl, rfl, rfl⟩⟩

theorem renders_compare (c : Column) (op : Comparison) (p : Param) :
    Renders [.text (columnName c ++ " " ++ comparisonSign op ++ " "), .param p]
      (.ofComparison op (.ofColumn c) (.value p.cell)) := by
  have hsign : Writes (fun _ => True) [.text (" " ++ (comparisonSign op ++ " "))]
      (comparisonTokens op) := by
    cases op <;> exact writes_parts (by decide +kernel) (by decide +kernel)
  have hends : Ends '\'' (" " ++ (comparisonSign op ++ " ")).toList := by
    cases op <;> decide +kernel
  have hne : (" " ++ (comparisonSign op ++ " ")).toList ≠ [] := by
    cases op <;> decide +kernel
  have htext := writes_column_text c hends hne hsign
  rw [← String.append_assoc, ← String.append_assoc] at htext
  refine ⟨_, (writes_cons_text htext (writes_param p)).mono fun _ _ => trivial, ?_⟩
  cases op <;> exact readsAs_leaf (by simp) fun _ _ => ⟨rfl, rfl, rfl, rfl, rfl, rfl⟩

theorem renders_isNull (c : Column) :
    Renders [.text (columnName c ++ " IS NULL")] (.same (.ofColumn c) (.value .null)) := by
  have hwords : Writes (Ends '\'') [.text " IS NULL"] [.keyword .is, .keyword .null] :=
    writes_stands (by decide +kernel) (by decide +kernel)
  exact ⟨_, writes_column_text c (by decide) (by decide) hwords,
    readsAs_leaf (by simp) fun _ _ => ⟨rfl, rfl, rfl, rfl, rfl, rfl⟩⟩

theorem renders_notNull (c : Column) :
    Renders [.text (columnName c ++ " IS NOT NULL")]
      (.no (.same (.ofColumn c) (.value .null))) := by
  have hwords : Writes (Ends '\'') [.text " IS NOT NULL"]
      [.keyword .is, .keyword .not, .keyword .null] :=
    writes_stands (by decide +kernel) (by decide +kernel)
  exact ⟨_, writes_column_text c (by decide) (by decide) hwords,
    readsAs_leaf (by simp) fun _ _ => ⟨rfl, rfl, rfl, rfl, rfl, rfl⟩⟩

theorem renders_contains (c : Column) (pattern : String) :
    Renders [.text ("unicode_lower(" ++ columnName c ++ ") LIKE "), .param (.text pattern),
        .text " ESCAPE '\\'"]
      (.like (.call "unicode_lower".toList [.ofColumn c]) (.value (.text pattern))
        (.value (.text "\\"))) := by
  have hname : Writes (fun _ => True) [.text "unicode_lower("]
      [.name "unicode_lower".toList, .opening] :=
    writes_parts (by decide +kernel) (by decide +kernel)
  have hlike : Writes (fun _ => True) [.text ") LIKE "] [.closing, .keyword .like] :=
    writes_parts (by decide +kernel) (by decide +kernel)
  have hescape : Writes (Ends '\'') [.text " ESCAPE '\\'"] [.keyword .escape, .quoted ['\\']] :=
    writes_stands (by decide +kernel) (by decide +kernel)
  have htext := writes_text_append (writes_cons_text hname
    (writes_column_text c (by decide) (by decide) hlike))
  rw [← String.append_assoc] at htext
  exact ⟨_, writes_cons_text htext (writes_param_text _ hescape),
    readsAs_leaf (by simp) fun _ _ => ⟨rfl, rfl, rfl, rfl, rfl, rfl⟩⟩

theorem renders_startsWith (c : Column) (n : Int) (start : String) :
    Renders [.text ("SUBSTR(" ++ columnName c ++ ", 1, "), .param (.int n), .text ") = ",
        .param (.text start)]
      (.compare .eq (.call "SUBSTR".toList [.ofColumn c, .value (.int 1), .value (.int n)])
        (.value (.text start))) := by
  have hname : Writes (fun _ => True) [.text "SUBSTR("] [.name "SUBSTR".toList, .opening] :=
    writes_parts (by decide +kernel) (by decide +kernel)
  have hfirst : Writes (fun _ => True) [.text ", 1, "] [.comma, .number 1, .comma] :=
    writes_parts (by decide +kernel) (by decide +kernel)
  have hequals : Writes (fun _ => True) [.text ") = "] [.closing, .equals] :=
    writes_parts (by decide +kernel) (by decide +kernel)
  have htext := writes_text_append (writes_cons_text hname
    (writes_column_text c (by decide) (by decide) hfirst))
  rw [← String.append_assoc] at htext
  exact ⟨_, (writes_cons_text htext (writes_cons_param _ (writes_cons_text hequals
    (writes_param _)))).mono fun _ _ => trivial,
    readsAs_leaf (by simp) fun _ _ => ⟨rfl, rfl, rfl, rfl, rfl, rfl⟩⟩

/-- A question to one table, with one value. -/
theorem renders_inTable {w : String} {a condition : Expr} {table column : String} {p : Param}
    {ts : List Token} (h : Writes (fun _ => True) [.text w] ts)
    (hread : ReadsAs (ts ++ [.value p, .closing]) (.inTable a table column condition)) :
    Renders [.text w, .param p, .text ")"] (.inTable a table column condition) := by
  have hclosing : Writes (fun _ => True) [.text ")"] [.closing] :=
    writes_parts (by decide) (by decide)
  exact ⟨_, (writes_cons_text h (writes_param_text p hclosing)).mono fun _ _ => trivial, hread⟩

theorem renders_label (id : Int) :
    Renders [.text "e.id IN (SELECT article_id FROM user_labels WHERE label_id = ",
        .param (.int id), .text ")"]
      (.inTable (.ofColumn .entryId) "user_labels" "article_id"
        (.equals "label_id" (.int id))) := by
  have hselect : Writes (fun _ => True)
      [.text "e.id IN (SELECT article_id FROM user_labels WHERE label_id = "]
      (columnTokens .entryId ++ [.keyword .isIn, .opening, .keyword .select,
        .name "article_id".toList, .keyword .source, .name "user_labels".toList, .keyword .whose,
        .name "label_id".toList, .equals]) :=
    writes_parts (by decide +kernel) (by decide +kernel)
  exact renders_inTable hselect
    (readsAs_leaf (by simp) fun _ _ => ⟨rfl, rfl, rfl, rfl, rfl, rfl⟩)

theorem renders_index (question : String) :
    Renders [.text "e.id IN (SELECT rowid FROM entries_fts WHERE entries_fts MATCH ",
        .param (.text question), .text ")"]
      (.inTable (.ofColumn .entryId) "entries_fts" "rowid"
        (.answers "entries_fts".toList (.value (.text question)))) := by
  have hselect : Writes (fun _ => True)
      [.text "e.id IN (SELECT rowid FROM entries_fts WHERE entries_fts MATCH "]
      (columnTokens .entryId ++ [.keyword .isIn, .opening, .keyword .select,
        .name "rowid".toList, .keyword .source, .name "entries_fts".toList, .keyword .whose,
        .name "entries_fts".toList, .keyword .answers]) :=
    writes_parts (by decide +kernel) (by decide +kernel)
  exact renders_inTable hselect
    (readsAs_leaf (by simp) fun _ _ => ⟨rfl, rfl, rfl, rfl, rfl, rfl⟩)

theorem renders_tag (owner : Int) (name : String) :
    Renders [.text "ue.int_id IN (SELECT post_int_id FROM tags WHERE owner_uid = ",
        .param (.int owner), .text " AND tag_name = ", .param (.text name), .text ")"]
      (.inTable (.column (some "ue".toList) "int_id".toList) "tags" "post_int_id"
        (.both (.equals "owner_uid" (.int owner)) (.equals "tag_name" (.text name)))) := by
  have hselect : Writes (fun _ => True)
      [.text "ue.int_id IN (SELECT post_int_id FROM tags WHERE owner_uid = "]
      [.name "ue".toList, .dot, .name "int_id".toList, .keyword .isIn, .opening, .keyword .select,
        .name "post_int_id".toList, .keyword .source, .name "tags".toList, .keyword .whose,
        .name "owner_uid".toList, .equals] :=
    writes_parts (by decide +kernel) (by decide +kernel)
  have hname : Writes (fun _ => True) [.text " AND tag_name = "]
      [.keyword .and, .name "tag_name".toList, .equals] :=
    writes_parts (by decide +kernel) (by decide +kernel)
  have hclosing : Writes (fun _ => True) [.text ")"] [.closing] :=
    writes_parts (by decide) (by decide)
  exact ⟨_, (writes_cons_text hselect (writes_cons_param _ (writes_cons_text hname
    (writes_param_text _ hclosing)))).mono fun _ _ => trivial,
    readsAs_leaf (by simp) fun _ _ => ⟨rfl, rfl, rfl, rfl, rfl, rfl⟩⟩

theorem renders_labelOf (owner : Int) :
    Renders [.text ("e.id IN (SELECT ul.article_id FROM user_labels ul " ++
        "JOIN labels l ON l.id = ul.label_id WHERE l.owner_uid = "), .param (.int owner),
        .text ")"] (.ofOwner owner) := by
  have hselect : Writes (fun _ => True) [.text "e.id IN (SELECT ul.article_id FROM user_labels ul "]
      (columnTokens .entryId ++ [.keyword .isIn, .opening, .keyword .select, .name "ul".toList,
        .dot, .name "article_id".toList, .keyword .source, .name "user_labels".toList,
        .name "ul".toList]) :=
    writes_parts (by decide +kernel) (by decide +kernel)
  have hjoin : Writes (fun _ => True)
      [.text "JOIN labels l ON l.id = ul.label_id WHERE l.owner_uid = "]
      [.keyword .join, .name "labels".toList, .name "l".toList, .keyword .on, .name "l".toList,
        .dot, .name "id".toList, .equals, .name "ul".toList, .dot, .name "label_id".toList,
        .keyword .whose, .name "l".toList, .dot, .name "owner_uid".toList, .equals] :=
    writes_parts (by decide +kernel) (by decide +kernel)
  have hclosing : Writes (fun _ => True) [.text ")"] [.closing] :=
    writes_parts (by decide) (by decide)
  exact ⟨_, (writes_cons_text (writes_text_append (writes_cons_text hselect hjoin))
    (writes_param_text _ hclosing)).mono fun _ _ => trivial,
    readsAs_leaf (by simp) fun _ _ => ⟨rfl, rfl, rfl, rfl, rfl, rfl⟩⟩

/-- A query that is refused is left to a function. -/
theorem renders_refused (language query : String) :
    Renders [.text "ts_check(", .param (.text language), .text ", ", .param (.text query),
        .text ") = 1"]
      (.compare .eq (.call "ts_check".toList [.value (.text language), .value (.text query)])
        (.value (.int 1))) := by
  have hname : Writes (fun _ => True) [.text "ts_check("] [.name "ts_check".toList, .opening] :=
    writes_parts (by decide +kernel) (by decide +kernel)
  have hcomma : Writes (fun _ => True) [.text ", "] [.comma] := writes_parts (by decide) (by decide)
  have hequals : Writes (Ends '\'') [.text ") = 1"] [.closing, .equals, .number 1] :=
    writes_stands (by decide +kernel) (by decide +kernel)
  exact ⟨_, writes_cons_text hname (writes_cons_param _ (writes_cons_text hcomma
    (writes_param_text _ hequals))),
    readsAs_leaf (by simp) fun _ _ => ⟨rfl, rfl, rfl, rfl, rfl, rfl⟩⟩

section Joined

variable {β : Type} {f : β → Statement} {tokens : β → List Token} {expr : β → Expr} {x : β}
  {xs : List β} {operator : String} {t : Token}

theorem writes_intersperse (hop : Writes (fun _ => True) [.text operator] [t])
    (hends : Ends '\'' operator.toList) (hne : operator.toList ≠ [])
    (h : ∀ y ∈ x :: xs, Writes (Ends '\'') (f y) (tokens y)) :
    Writes (Ends '\'') (((x :: xs).map f).intersperse [.text operator]).flatten
      ([t].intercalate ((x :: xs).map tokens)) := by
  induction xs generalizing x with
  | nil => simpa using h x List.mem_cons_self
  | cons y ys ih =>
    have hx := h x List.mem_cons_self
    have hrest := ih fun z hz => h z (List.mem_cons_of_mem x hz)
    have hoperator := hop.append hrest fun _ _ => trivial
    have hall := hx.append hoperator fun rest _ => by
      rw [sql_append, sql_piece, List.append_assoc]
      exact hends.append hne _
    simpa using hall

theorem Writes.bracketed {s : Statement} {ts : List Token} (h : Writes (Ends '\'') s ts) :
    Writes (Ends '\'') ([.text "("] ++ s ++ [.text ")"]) ([.opening] ++ ts ++ [.closing]) := by
  have hopening : Writes (fun _ => True) [.text "("] [.opening] :=
    writes_parts (by decide) (by decide)
  have hclosing : Writes (fun _ => True) [.text ")"] [.closing] :=
    writes_parts (by decide) (by decide)
  refine ((hopening.append h fun _ _ => trivial).append (hclosing.mono fun _ _ => trivial)) ?_
  intro rest _
  rw [sql_piece]
  exact Ends.append (by decide) (by decide) rest

theorem renders_all (h : ∀ y ∈ x :: xs, Renders (f y) (expr y)) :
    Renders (Statement.joined " AND " ((x :: xs).map f)) (.fold .both ((x :: xs).map expr)) := by
  have hand : Writes (fun _ => True) [.text " AND "] [.keyword .and] :=
    writes_parts (by decide +kernel) (by decide +kernel)
  choose! tokens hwrites hreads using h
  exact ⟨_, (writes_intersperse hand (by decide) (by decide) hwrites).bracketed,
    (readsWhole_all hreads).bracketed⟩

theorem renders_any (h : ∀ y ∈ x :: xs, Renders (f y) (expr y)) :
    Renders (Statement.joined " OR " ((x :: xs).map f)) (.fold .either ((x :: xs).map expr)) := by
  have hor : Writes (fun _ => True) [.text " OR "] [.keyword .or] :=
    writes_parts (by decide +kernel) (by decide +kernel)
  choose! tokens hwrites hreads using h
  exact ⟨_, (writes_intersperse hor (by decide) (by decide) hwrites).bracketed,
    (readsWhole_any hreads).bracketed⟩

theorem Renders.no {s : Statement} {e : Expr} (h : Renders s e) :
    Renders ([.text "NOT ("] ++ s ++ [.text ")"]) (.no e) := by
  obtain ⟨ts, hwrites, hreads⟩ := h
  have hnot : Writes (fun _ => True) [.text "NOT ("] [.keyword .not, .opening] :=
    writes_parts (by decide +kernel) (by decide +kernel)
  have hclosing : Writes (fun _ => True) [.text ")"] [.closing] :=
    writes_parts (by decide) (by decide)
  refine ⟨_, (hnot.append hwrites fun _ _ => trivial).append (hclosing.mono fun _ _ => trivial) ?_,
    hreads.whole.no⟩
  intro rest _
  rw [sql_piece]
  exact Ends.append (by decide) (by decide) rest

end Joined

section Lists

variable {n m d : Nat} {k : Int} {ks : List Int}

def valueTokens (k : Int) : List Token := [.value (.int k)]

/-- Values with commas between them and a closing bracket behind them. -/
theorem listFrom_values (hm : ks.length < m) (rest : List Token) :
    listFrom (expression (d + 1)) m
      ([.comma].intercalate ((k :: ks).map valueTokens) ++ .closing :: rest) =
        some ((k :: ks).map fun k => .value (.int k), rest) := by
  obtain ⟨m, rfl⟩ := Nat.exists_eq_add_one.mpr (Nat.lt_of_le_of_lt (Nat.zero_le _) hm)
  induction ks generalizing k m with
  | nil => rfl
  | cons l ls ih =>
    obtain ⟨m, rfl⟩ := Nat.exists_eq_add_one.mpr
      (Nat.lt_of_le_of_lt (Nat.zero_le _) (Nat.lt_of_succ_lt_succ hm))
    have hmore := @ih l m (Nat.lt_of_succ_lt_succ hm)
    have hfirst (ts : List Token) :
        expression (d + 1) (.value (.int k) :: .comma :: ts) =
          some (.value (.int k), .comma :: ts) := rfl
    have htokens : [.comma].intercalate ((k :: l :: ls).map valueTokens) =
        .value (.int k) :: .comma :: [.comma].intercalate ((l :: ls).map valueTokens) := by
      simp [valueTokens]
    rw [htokens, List.cons_append, List.cons_append, listFrom, hfirst]
    simp only [hmore]
    rfl

theorem equalityStep_list (a : Expr) :
    Reads (equalityStep (expression (d + 1)) a) (fun _ => True) ([.keyword .isIn, .opening] ++
        [.comma].intercalate ((k :: ks).map valueTokens) ++ [.closing])
      (.oneOf a ((k :: ks).map fun k => .value (.int k))) := by
  intro rest _
  obtain ⟨more, hmore⟩ : ∃ more, [.comma].intercalate ((k :: ks).map valueTokens) ++
      .closing :: rest = .value (.int k) :: more := ⟨_, by rw [intercalate_cons]; rfl⟩
  have hlength : ks.length < (Token.value (.int k) :: more).length := by
    have hmarks : ks.length ≤ (ks.flatMap fun k => Token.comma :: valueTokens k).length :=
      length_le_flatMap
    rw [← hmore, intercalate_cons, List.length_append, List.length_append, List.length_cons]
    omega
  have hlist := listFrom_values (d := d) (k := k) hlength rest
  rw [hmore] at hlist
  have hstep : equalityStep (expression (d + 1)) a
      (.keyword .isIn :: .opening :: .value (.int k) :: more) =
        (listFrom (expression (d + 1)) (Token.value (.int k) :: more).length
          (.value (.int k) :: more)).map fun p => (.oneOf a p.1, p.2) := rfl
  have htokens : [.keyword .isIn, .opening] ++ [.comma].intercalate ((k :: ks).map valueTokens) ++
      [.closing] ++ rest = .keyword .isIn :: .opening :: .value (.int k) :: more := by
    rw [← hmore]
    simp
  rw [htokens, hstep, hlist]
  rfl

theorem readsAs_list (c : Column) (k : Int) (ks : List Int) :
    ReadsAs (columnTokens c ++ ([.keyword .isIn, .opening] ++
        [.comma].intercalate ((k :: ks).map valueTokens) ++ [.closing]))
      (.oneOf (.ofColumn c) ((k :: ks).map fun k => .value (.int k))) := by
  intro n hn rest hrest
  obtain ⟨n, rfl⟩ := Nat.exists_eq_add_one.mpr (Nat.lt_of_lt_of_le (Nat.succ_pos _) hn)
  have hcolumn : Reads (relation (expression (n + 1)))
      (fun rest => ∃ more, rest = .keyword .isIn :: more) (columnTokens c) (.ofColumn c) := by
    intro rest hrest
    obtain ⟨more, rfl⟩ := hrest
    rfl
  have hhalts : ∀ rest, Heads breakers rest → equalityStep (expression (n + 1))
      (.oneOf (.ofColumn c) ((k :: ks).map fun k => .value (.int k))) rest = none := by
    intro rest hrest
    apply breakers_elim (P := fun rest => equalityStep (expression (n + 1)) _ rest = none) hrest <;>
      intros <;> rfl
  have hequality : Reads (equality (expression (n + 1))) (Heads breakers) _ _ :=
    chain_reads_step hcolumn (by simp) ((equalityStep_list _).mono fun _ _ => trivial)
      (fun rest _ => ⟨_, rfl⟩) hhalts
  exact hequality rest hrest

theorem flatten_intersperse {α β : Type} (f : α → β) (sep : β) (xs : List α) :
    ((xs.map fun x => [f x]).intersperse [sep]).flatten = (xs.map f).intersperse sep := by
  induction xs with
  | nil => rfl
  | cons x xs ih =>
    cases xs with
    | nil => rfl
    | cons y ys => simpa using ih

theorem renders_list (c : Column) (values : List Int) :
    Renders (listCondition c values) (.ofList c values) := by
  cases values with
  | nil => exact renders_literal (writes_stands (by decide) (by decide))
  | cons k ks =>
    have hin : Writes (fun _ => True) [.text " IN ("] [.keyword .isIn, .opening] :=
      writes_parts (by decide +kernel) (by decide +kernel)
    have hcomma : Writes (fun _ => True) [.text ", "] [.comma] :=
      writes_parts (by decide) (by decide)
    have hclosing : Writes (Ends '\'') [.text ")"] [.closing] :=
      writes_stands (by decide) (by decide)
    have hvalues : Writes (Ends '\'')
        (((k :: ks).map fun k => [Piece.param (.int k)]).intersperse [.text ", "]).flatten
        ([.comma].intercalate ((k :: ks).map valueTokens)) :=
      writes_intersperse hcomma (by decide) (by decide) fun k _ =>
        (writes_param (.int k)).mono fun _ _ => trivial
    rw [flatten_intersperse] at hvalues
    have hopening := writes_column_text c (by decide) (by decide) hin
    have hall := (hopening.append hvalues fun _ _ => trivial).append hclosing fun rest _ => by
      rw [sql_piece]
      exact Ends.append (by decide) (by decide) rest
    refine ⟨_, ?_, readsAs_list c k ks⟩
    rw [listCondition, if_neg (List.cons_ne_nil k ks)]
    simpa using hall

end Lists

theorem conditions_eq_map (ps : List Predicate) : conditions ps = ps.map condition := by
  induction ps with
  | nil => rfl
  | cons p ps ih => rw [conditions, ih, List.map_cons]

theorem matchConditions_eq_map (ts : List MatchTree) :
    matchConditions ts = ts.map matchCondition := by
  induction ts with
  | nil => rfl
  | cons t ts ih => rw [matchConditions, ih, List.map_cons]

theorem ofPredicates_eq_map (ps : List Predicate) :
    Expr.ofPredicates ps = ps.map Expr.ofPredicate := by
  induction ps with
  | nil => rfl
  | cons p ps ih => rw [Expr.ofPredicates, ih, List.map_cons]

theorem ofMatches_eq_map (ts : List MatchTree) : Expr.ofMatches ts = ts.map Expr.ofMatch := by
  induction ts with
  | nil => rfl
  | cons t ts ih => rw [Expr.ofMatches, ih, List.map_cons]

mutual

theorem matchCondition_renders {t : MatchTree} (h : t.Askable) :
    Renders (matchCondition t) (.ofMatch t) := by
  cases t with
  | expr e => exact renders_index e.text
  | all parts =>
    obtain ⟨t, ts, rfl⟩ := List.exists_cons_of_ne_nil h.1
    rw [matchCondition, Expr.ofMatch, matchConditions_eq_map, ofMatches_eq_map]
    exact renders_all (matchConditions_renders h.2)
  | any parts =>
    obtain ⟨t, ts, rfl⟩ := List.exists_cons_of_ne_nil h.1
    rw [matchCondition, Expr.ofMatch, matchConditions_eq_map, ofMatches_eq_map]
    exact renders_any (matchConditions_renders h.2)
  | no part => exact (matchCondition_renders (t := part) h).no

theorem matchConditions_renders {ts : List MatchTree} (h : MatchTree.AllAskable ts) :
    ∀ t ∈ ts, Renders (matchCondition t) (.ofMatch t) := by
  intro t ht
  cases ts with
  | nil => cases ht
  | cons u ts =>
    rcases List.mem_cons.mp ht with rfl | ht
    · exact matchCondition_renders h.1
    · exact matchConditions_renders h.2 t ht

end

theorem fullTextCondition_renders (language query : String) :
    Renders (fullTextCondition language query) (.ofFullText language query) := by
  cases h : FullText.compile language query with
  | ok tree =>
    simp only [fullTextCondition, Expr.ofFullText, h]
    exact matchCondition_renders (FullText.askable_compile h)
  | error _ =>
    simp only [fullTextCondition, Expr.ofFullText, h]
    exact renders_refused language query

mutual

/-- The text of a filter is read as an expression of its structure. -/
theorem condition_renders (p : Predicate) : Renders (condition p) (.ofPredicate p) := by
  cases p with
  | always => exact renders_literal (writes_stands (by decide) (by decide))
  | never => exact renders_literal (writes_stands (by decide) (by decide))
  | conj parts =>
    cases parts with
    | nil => exact renders_literal (writes_stands (by decide) (by decide))
    | cons p ps =>
      rw [condition, Expr.ofPredicate, conditions_eq_map, ofPredicates_eq_map]
      exact renders_all (conditions_renders (p :: ps))
  | disj parts =>
    cases parts with
    | nil => exact renders_literal (writes_stands (by decide) (by decide))
    | cons p ps =>
      rw [condition, Expr.ofPredicate, conditions_eq_map, ofPredicates_eq_map]
      exact renders_any (conditions_renders (p :: ps))
  | no inner =>
    rw [condition, Expr.ofPredicate]
    exact (condition_renders inner).no
  | compare c op v => exact renders_compare c op (valueParam v)
  | isNull c => exact renders_isNull c
  | notNull c => exact renders_notNull c
  | contains c needle => exact renders_contains c (likePattern needle)
  | inList c values => exact renders_list c values
  | startsWith c start => exact renders_startsWith c start.length start
  | label id => exact renders_label id
  | labelOf owner => exact renders_labelOf owner
  | tag owner name => exact renders_tag owner name
  | fullText language query => exact fullTextCondition_renders language query

theorem conditions_renders (ps : List Predicate) :
    ∀ p ∈ ps, Renders (condition p) (.ofPredicate p) := by
  intro p hp
  cases ps with
  | nil => cases hp
  | cons q ps =>
    rcases List.mem_cons.mp hp with rfl | hp
    · exact condition_renders p
    · exact conditions_renders ps p hp

end

end Newsfeed.Sql
