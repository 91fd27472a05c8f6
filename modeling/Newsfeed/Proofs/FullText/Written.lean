import Newsfeed.FullText.MatchTree
import Newsfeed.Proofs.Reading.Chain
import Newsfeed.Proofs.Reading.Lexeme
import Newsfeed.Proofs.Text.Decimal

/-!
How the full-text index reads a question. `NOT` binds tighter than `AND`, which binds tighter than
`OR`; a phrase stands in quotes, with spaces between its words. The text of an expression is read as
that expression.
-/

namespace Newsfeed.Indexing

open Newsfeed.Reading Newsfeed.Text

open Newsfeed.FullText (Phrase IndexExpr)

inductive Token where
  | quoted (text : List Char)
  | star | opening | closing | comma
  | and | or | not | near
  | number (n : Nat)
  | stray
  deriving DecidableEq, Repr

def Token.ofLexeme : Lexeme → Token
  | .quoted text => .quoted text
  | .unclosed _ => .stray
  | .word w =>
    if w = ['A', 'N', 'D'] then .and
    else if w = ['O', 'R'] then .or
    else if w = ['N', 'O', 'T'] then .not
    else if w = ['N', 'E', 'A', 'R'] then .near
    else match readNat? w with
      | some n => .number n
      | none => .stray
  | .sign c =>
    if c = '*' then .star
    else if c = '(' then .opening
    else if c = ')' then .closing
    else if c = ',' then .comma
    else .stray

abbrev IndexReader := Reader Token IndexExpr

def spacedWords (text : List Char) : List String := (text.splitOn ' ').map String.ofList

def phrase : Reader Token Phrase
  | .quoted text :: .star :: ts => some (⟨spacedWords text, true⟩, ts)
  | .quoted text :: ts => some (⟨spacedWords text, false⟩, ts)
  | _ => none

/-- Two phrases, a comma and the greatest number of words between them. -/
def nearness (ts : List Token) : Option (IndexExpr × List Token) :=
  (phrase ts).bind fun (p, ts) => (phrase ts).bind fun (q, ts) => match ts with
    | .comma :: .number gap :: .closing :: ts => some (.near p q gap, ts)
    | _ => none

def joinNot? : Token → Option (IndexExpr → IndexExpr → IndexExpr)
  | .not => some .butNot
  | _ => none

def joinAnd? : Token → Option (IndexExpr → IndexExpr → IndexExpr)
  | .and => some .both
  | _ => none

def joinOr? : Token → Option (IndexExpr → IndexExpr → IndexExpr)
  | .or => some .either
  | _ => none

section Levels

variable (inner : IndexReader)

def part : IndexReader
  | .opening :: ts => upTo .closing (inner ts)
  | .near :: .opening :: ts => nearness ts
  | ts => (phrase ts).map fun (p, ts) => (.phrase p, ts)

def exclusion : IndexReader := chain (part inner) (infixStep (part inner) joinNot?)

def intersection : IndexReader := chain (exclusion inner) (infixStep (exclusion inner) joinAnd?)

def union : IndexReader := chain (intersection inner) (infixStep (intersection inner) joinOr?)

end Levels

/-- An expression with brackets inside each other at most `n` deep. -/
def expression : Nat → IndexReader
  | 0 => fun _ => none
  | n + 1 => union (expression n)

/-- The question that a text puts to the index. Each bracket is a token, so they are no deeper
inside each other than there are tokens. -/
def read? (text : String) : Option IndexExpr :=
  let ts := (lex '"' text.toList).map Token.ofLexeme
  match expression (ts.length + 1) ts with
  | some (e, []) => some e
  | _ => none

/-! ### What is written -/

/-- The words can be told apart in a text that has spaces between them. -/
def IsSpelt (p : Phrase) : Prop := p.words ≠ [] ∧ ∀ w ∈ p.words, ' ' ∉ w.toList

def phraseTokens (p : Phrase) : List Token :=
  .quoted (String.intercalate " " p.words).toList :: if p.starred then [.star] else []

def tokens : IndexExpr → List Token
  | .phrase p => phraseTokens p
  | .near p q gap =>
    [.near, .opening] ++ phraseTokens p ++ phraseTokens q ++ [.comma, .number gap, .closing]
  | .both a b => [.opening] ++ tokens a ++ [.closing, .and, .opening] ++ tokens b ++ [.closing]
  | .either a b => [.opening] ++ tokens a ++ [.closing, .or, .opening] ++ tokens b ++ [.closing]
  | .butNot a b => [.opening] ++ tokens a ++ [.closing, .not, .opening] ++ tokens b ++ [.closing]

/-- The piece of text is taken for these tokens, whatever comes after it. -/
def Writes (tail : List Char → Prop) (cs : List Char) (ts : List Token) : Prop :=
  ∃ ls, Lexes '"' tail cs ls ∧ ls.map Token.ofLexeme = ts

section Writing

variable {tail tail' : List Char → Prop} {cs ds : List Char} {ts us : List Token}

theorem Writes.append (h : Writes tail cs ts) (h' : Writes tail' ds us)
    (htail : ∀ rest, tail' rest → tail (ds ++ rest)) : Writes tail' (cs ++ ds) (ts ++ us) := by
  obtain ⟨ls, hls, rfl⟩ := h
  obtain ⟨ms, hms, rfl⟩ := h'
  exact ⟨ls ++ ms, hls.append hms htail, List.map_append⟩

theorem Writes.mono (h : Writes tail cs ts) (htail : ∀ rest, tail' rest → tail rest) :
    Writes tail' cs ts := by
  obtain ⟨ls, hls, hts⟩ := h
  exact ⟨ls, hls.mono htail, hts⟩

theorem writes_parts (h : Parts '"' cs) (hts : (lex '"' cs).map Token.ofLexeme = ts) :
    Writes (fun _ => True) cs ts := ⟨_, lexes_of_parts h, hts⟩

theorem writes_stands (h : Stands '"' cs) (hts : (lex '"' cs).map Token.ofLexeme = ts) :
    Writes (Ends '"') cs ts := ⟨_, lexes_of_stands h, hts⟩

theorem writes_phrase (p : Phrase) : Writes (Ends '"') p.text.toList (phraseTokens p) := by
  have hscan := @scan_doubled '"' [] (String.intercalate " " p.words).toList
  have hbody : Writes (Ends '"') ('"' :: ((String.intercalate " " p.words).toList.flatMap
      fun c => if c = '"' then ['"', '"'] else [c]) ++ ['"'])
      [.quoted (String.intercalate " " p.words).toList] := by
    have hall : scan '"' .between ('"' :: ((String.intercalate " " p.words).toList.flatMap
        fun c => if c = '"' then ['"', '"'] else [c]) ++ ['"']) =
        ([], .closing (String.intercalate " " p.words).toList) := by
      rw [List.cons_append, scan]
      have hstart : Mode.step '"' '"' .between = ([], .quoted []) := rfl
      rw [hstart, scan_append, hscan]
      rfl
    refine writes_stands ?_ ?_
    · rw [Stands, hall]
      trivial
    · rw [lex, hall]
      rfl
  have htext : p.text.toList = '"' :: ((String.intercalate " " p.words).toList.flatMap
      fun c => if c = '"' then ['"', '"'] else [c]) ++ ['"'] ++
      if p.starred then ['*'] else [] := by
    rw [Phrase.text]
    cases p.starred <;> simp
  rw [htext, phraseTokens]
  cases p.starred with
  | false =>
    rw [if_neg Bool.false_ne_true, List.append_nil, if_neg Bool.false_ne_true]
    exact hbody
  | true =>
    rw [if_pos rfl, if_pos rfl]
    have hstar : Writes (fun _ => True) ['*'] [.star] := writes_parts (by decide) (by decide)
    exact hbody.append (hstar.mono fun _ _ => trivial) fun rest _ =>
      ends_cons (by decide) (by decide) rest

theorem writes_number (n : Nat) : Writes (Ends '"') (toString n).toList [.number n] := by
  rw [Nat.toString_eq_ofList_toDigits, String.toList_ofList]
  have hdigit : ∀ c ∈ Nat.toDigits 10 n, c.isDigit := fun c hc =>
    Nat.isDigit_of_mem_toDigits (by decide) (by decide) hc
  have hscan : scan '"' .between (Nat.toDigits 10 n) = ([], .word (Nat.toDigits 10 n)) :=
    scan_word Nat.toDigits_ne_nil fun c hc => by simp [isWordChar, Char.isAlphanum, hdigit c hc]
  have hword {c : Char} (hc : c.isDigit = false) (w : List Char) :
      Nat.toDigits 10 n ≠ c :: w := by
    intro heq
    have hmem : c ∈ Nat.toDigits 10 n := heq ▸ List.mem_cons_self
    rw [hdigit c hmem] at hc
    cases hc
  refine writes_stands ?_ ?_
  · rw [Stands, hscan]
    trivial
  · rw [lex, hscan, Mode.finish, List.nil_append, List.map_singleton, Token.ofLexeme,
      if_neg (hword (by decide) _), if_neg (hword (by decide) _), if_neg (hword (by decide) _),
      if_neg (hword (by decide) _), readNat_toDigits]

/-- Two expressions in brackets with an operator between them. -/
theorem writes_joined (operator : List Char) {t : Token}
    (hparts : Parts '"' (')' :: operator ++ ['(']))
    (hts : (lex '"' (')' :: operator ++ ['('])).map Token.ofLexeme = [.closing, t, .opening])
    (h : Writes (Ends '"') cs ts) (h' : Writes (Ends '"') ds us) :
    Writes (fun _ => True) (['('] ++ cs ++ (')' :: operator ++ ['(']) ++ ds ++ [')'])
      ([.opening] ++ ts ++ [.closing, t, .opening] ++ us ++ [.closing]) := by
  have hopening : Writes (fun _ => True) ['('] [.opening] := writes_parts (by decide) (by decide)
  have hclosing : Writes (fun _ => True) [')'] [.closing] := writes_parts (by decide) (by decide)
  have hends (more rest : List Char) : Ends '"' (')' :: more ++ rest) :=
    ends_cons (by decide) (by decide) _
  exact (((hopening.append h fun _ _ => trivial).append (writes_parts hparts hts)
    fun rest _ => hends _ rest).append h' fun _ _ => trivial).append hclosing
      fun rest _ => hends _ rest

theorem writes_near (p q : Phrase) (gap : Nat) :
    Writes (fun _ => True) (IndexExpr.near p q gap).text.toList (tokens (.near p q gap)) := by
  have hnear : Writes (fun _ => True) "NEAR(".toList [.near, .opening] :=
    writes_parts (by decide) (by decide)
  have hspace : Writes (fun _ => True) [' '] [] := writes_parts (by decide) (by decide)
  have hcomma : Writes (fun _ => True) ", ".toList [.comma] := writes_parts (by decide) (by decide)
  have hclosing : Writes (fun _ => True) [')'] [.closing] := writes_parts (by decide) (by decide)
  have htext : (IndexExpr.near p q gap).text.toList = "NEAR(".toList ++ p.text.toList ++ [' '] ++
      q.text.toList ++ ", ".toList ++ (toString gap).toList ++ [')'] := by
    simp only [IndexExpr.text, String.toList_append]
    rfl
  have htokens : tokens (.near p q gap) = [.near, .opening] ++ phraseTokens p ++ [] ++
      phraseTokens q ++ [.comma] ++ [.number gap] ++ [.closing] := by
    simp [tokens]
  rw [htext, htokens]
  have hphrases := ((hnear.append (writes_phrase p) fun _ _ => trivial).append hspace
    fun rest _ => ends_cons (by decide) (by decide) rest).append (writes_phrase q)
      fun _ _ => trivial
  exact ((hphrases.append hcomma fun rest _ => ends_cons (by decide) (by decide) _).append
    (writes_number gap) fun _ _ => trivial).append hclosing
      fun rest _ => ends_cons (by decide) (by decide) rest

theorem writes_text (e : IndexExpr) : Writes (Ends '"') e.text.toList (tokens e) := by
  induction e with
  | phrase p => exact writes_phrase p
  | near p q gap => exact (writes_near p q gap).mono fun _ _ => trivial
  | both a b ha hb =>
    have hjoined := writes_joined " AND ".toList (t := .and) (by decide) (by decide) ha hb
    refine Writes.mono ?_ fun _ _ => trivial
    simpa [IndexExpr.text, tokens] using hjoined
  | either a b ha hb =>
    have hjoined := writes_joined " OR ".toList (t := .or) (by decide) (by decide) ha hb
    refine Writes.mono ?_ fun _ _ => trivial
    simpa [IndexExpr.text, tokens] using hjoined
  | butNot a b ha hb =>
    have hjoined := writes_joined " NOT ".toList (t := .not) (by decide) (by decide) ha hb
    refine Writes.mono ?_ fun _ _ => trivial
    simpa [IndexExpr.text, tokens] using hjoined

end Writing

/-! ### What is read -/

def Spelt : IndexExpr → Prop
  | .phrase p => IsSpelt p
  | .near p q _ => IsSpelt p ∧ IsSpelt q
  | .both a b => Spelt a ∧ Spelt b
  | .either a b => Spelt a ∧ Spelt b
  | .butNot a b => Spelt a ∧ Spelt b

section Reading

variable {inner : IndexReader} {join? : Token → Option (IndexExpr → IndexExpr → IndexExpr)}
  {join : IndexExpr → IndexExpr → IndexExpr} {t : Token} {ts us : List Token} {a b : IndexExpr}

theorem spacedWords_intercalate {ws : List String} (hne : ws ≠ [])
    (hws : ∀ w ∈ ws, ' ' ∉ w.toList) : spacedWords (String.intercalate " " ws).toList = ws := by
  have hsplit : ([' '].intercalate (ws.map String.toList)).splitOn ' ' = ws.map String.toList := by
    refine List.splitOn_intercalate ' ' (fun l hl => ?_) (by simpa using hne)
    obtain ⟨w, hw, rfl⟩ := List.mem_map.mp hl
    exact hws w hw
  have hspace : " ".toList = [' '] := by decide
  rw [spacedWords, String.toList_intercalate, hspace, hsplit, List.map_map]
  simp

theorem reads_phrase {p : Phrase} (h : IsSpelt p) :
    Reads phrase (fun rest => .star ∉ rest.head?) (phraseTokens p) p := by
  intro rest hrest
  have hwords := spacedWords_intercalate h.1 h.2
  rw [phraseTokens]
  obtain ⟨words, starred⟩ := p
  cases starred with
  | true =>
    rw [if_pos rfl, List.cons_append, List.singleton_append, phrase, hwords]
  | false =>
    rw [if_neg Bool.false_ne_true, List.cons_append, List.nil_append, phrase, hwords]
    intro more hmore
    rw [hmore] at hrest
    exact hrest rfl

theorem part_phrase {p : Phrase} (h : IsSpelt p) :
    Reads (part inner) (fun rest => .star ∉ rest.head?) (phraseTokens p) (.phrase p) := by
  intro rest hrest
  have hread := reads_phrase h rest hrest
  rw [phraseTokens, List.cons_append] at hread ⊢
  rw [part, hread]
  · rfl
  · intro more h
    cases h
  · intro more h
    cases h

theorem part_near {p q : Phrase} (hp : IsSpelt p) (hq : IsSpelt q) (gap : Nat) :
    Reads (part inner) (fun _ => True) (tokens (.near p q gap)) (.near p q gap) := by
  intro rest _
  have hfirst := reads_phrase hp (phraseTokens q ++ [.comma, .number gap, .closing] ++ rest)
    (by simp [phraseTokens])
  have hsecond := reads_phrase hq ([.comma, .number gap, .closing] ++ rest) (by simp)
  simp only [List.append_assoc] at hfirst hsecond
  simp only [tokens, List.append_assoc]
  rw [List.cons_append, List.singleton_append, part, nearness, hfirst, Option.bind_some]
  change (phrase (phraseTokens q ++ ([.comma, .number gap, .closing] ++ rest))).bind _ = _
  rw [hsecond]
  rfl

theorem part_bracketed (h : Reads inner (Heads [.closing]) ts a) :
    Reads (part inner) (fun _ => True) ([.opening] ++ ts ++ [.closing]) a := by
  intro rest _
  have hinner := h (.closing :: rest) (by simp [Heads])
  rw [List.append_assoc, List.append_assoc, List.singleton_append, List.singleton_append, part,
    hinner, upTo, if_pos rfl]

/-- Both operands of an operator are in brackets. -/
theorem reads_joined {n : Nat} {operand : IndexReader} (hjoin : join? t = some join)
    (hus : ∀ u ∈ [Token.closing], join? u = none)
    (hoperand : ∀ {ts a}, Reads (part (expression n)) (Heads [t, .closing]) ts a →
      Reads operand (Heads [t, .closing]) ts a)
    (ha : Reads (expression n) (Heads [.closing]) ts a)
    (hb : Reads (expression n) (Heads [.closing]) us b) :
    Reads (chain operand (infixStep operand join?)) (Heads [.closing])
      ([.opening] ++ ts ++ [.closing, t, .opening] ++ us ++ [.closing]) (join a b) := by
  have hread := chain_of_two hjoin (hoperand ((part_bracketed ha).mono fun _ _ => trivial))
    (hoperand ((part_bracketed hb).mono fun _ _ => trivial)) hus
  simpa using hread

end Reading

/-- The text of an expression is read as the expression. -/
theorem expression_tokens {e : IndexExpr} (h : Spelt e) {n : Nat} (hn : (tokens e).length ≤ n) :
    Reads (expression n) (Heads [.closing]) (tokens e) e := by
  have hlevels {inner : IndexReader} {ts : List Token} {e : IndexExpr}
      (h : Reads (part inner) (Heads [.closing]) ts e) :
      Reads (union inner) (Heads [.closing]) ts e :=
    chain_of_reads (chain_of_reads (chain_of_reads h (by decide)) (by decide)) (by decide)
  induction e generalizing n with
  | phrase p =>
    obtain ⟨n, rfl⟩ := Nat.exists_eq_add_one.mpr (Nat.lt_of_lt_of_le (Nat.succ_pos _) hn)
    refine hlevels ((part_phrase h).mono fun rest hrest hstar => ?_)
    exact absurd (hrest _ hstar) (by decide)
  | near p q gap =>
    obtain ⟨n, rfl⟩ := Nat.exists_eq_add_one.mpr (Nat.lt_of_lt_of_le (Nat.succ_pos _) hn)
    exact hlevels ((part_near h.1 h.2 gap).mono fun _ _ => trivial)
  | both a b ha hb =>
    simp only [tokens, List.length_append, List.length_cons, List.length_nil] at hn
    obtain ⟨n, rfl⟩ := Nat.exists_eq_add_one.mpr (Nat.lt_of_lt_of_le (by omega) hn)
    have hread : Reads (intersection (expression n)) (Heads [.closing]) _ (.both a b) :=
      reads_joined (t := .and) rfl (by decide) (fun h => chain_of_reads h (by decide))
        (ha h.1 (by omega)) (hb h.2 (by omega))
    exact chain_of_reads hread (by decide)
  | either a b ha hb =>
    simp only [tokens, List.length_append, List.length_cons, List.length_nil] at hn
    obtain ⟨n, rfl⟩ := Nat.exists_eq_add_one.mpr (Nat.lt_of_lt_of_le (by omega) hn)
    have hread : Reads (union (expression n)) (Heads [.closing]) _ (.either a b) :=
      reads_joined (t := .or) rfl (by decide)
        (fun h => chain_of_reads (chain_of_reads h (by decide)) (by decide))
        (ha h.1 (by omega)) (hb h.2 (by omega))
    exact hread
  | butNot a b ha hb =>
    simp only [tokens, List.length_append, List.length_cons, List.length_nil] at hn
    obtain ⟨n, rfl⟩ := Nat.exists_eq_add_one.mpr (Nat.lt_of_lt_of_le (by omega) hn)
    have hread : Reads (exclusion (expression n)) (Heads [.closing]) _ (.butNot a b) :=
      reads_joined (t := .not) rfl (by decide) (fun h => h) (ha h.1 (by omega))
        (hb h.2 (by omega))
    exact chain_of_reads (chain_of_reads hread (by decide)) (by decide)

theorem read_text {e : IndexExpr} (h : Spelt e) : read? e.text = some e := by
  obtain ⟨ls, hls, hts⟩ := writes_text e
  have hread := expression_tokens h (Nat.le_succ (tokens e).length) [] (by simp [Heads])
  rw [List.append_nil] at hread
  simp only [read?, hls.lex_eq ends_nil, hts, hread]

end Newsfeed.Indexing
