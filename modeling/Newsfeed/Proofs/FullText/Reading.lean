import Mathlib.Data.List.Basic
import Newsfeed.Proofs.FullText.Meaning
import Newsfeed.Proofs.Reading.Chain
import Newsfeed.Proofs.Text.Spaced

/-!
How a written query is read, piece by piece. The lexemes of a piece do not depend on what comes
after it, and neither does what the reader makes of them.
-/

namespace Newsfeed.FullText

open Newsfeed.Text

/-- A word as the index has it. -/
structure IsWord (w : List Char) : Prop where
  ne_nil : w ≠ []
  alphanumeric : ∀ c ∈ w, isAlphanumeric c
  lowered : lowerChars w = w

section Lexing

/-- The characters that mean something in a search or a query. -/
def punctuation : List Char := "\"-@:<&|!()".toList

/-- Their code points. -/
def punctuationMarks : CharSet :=
  [(33, 34), (38, 38), (40, 41), (45, 45), (58, 58), (60, 60), (64, 64), (124, 124)]

theorem punctuation_apart_alphanumeric : CharSet.Apart punctuationMarks alphanumeric :=
  CharSet.apart_of_goesBeside (by decide) (blanks_beside _ (by simp)).1 (by decide +kernel)

theorem punctuation_not_alphanumeric {c : Char} (hc : c ∈ punctuation) :
    isAlphanumeric c = false := by
  have hmarks : ∀ d ∈ punctuation, punctuationMarks.has d :=
    List.all_eq_true.mp (by decide)
  exact punctuation_apart_alphanumeric.has_right (hmarks c hc)

theorem ne_of_alphanumeric {c d : Char} (h : isAlphanumeric c) (hd : d ∈ punctuation) :
    c ≠ d := by
  rintro rfl
  rw [punctuation_not_alphanumeric hd] at h
  cases h

theorem operator_of_alphanumeric {c : Char} (h : isAlphanumeric c) : operator? c = none := by
  unfold operator?
  split <;> first | rfl | exact absurd rfl (ne_of_alphanumeric h (by decide))

/-- A word that is being read ends before this. -/
def EndsWord (rest : List Char) : Prop := ∀ c ∈ rest.head?, isBlank c ∨ (operator? c).isSome

theorem endsWord_nil : EndsWord [] := by simp [EndsWord]

theorem endsWord_blank {c : Char} (h : isBlank c) (rest : List Char) : EndsWord (c :: rest) := by
  rintro d ⟨⟩
  exact .inl h

theorem endsWord_closing (rest : List Char) : EndsWord (')' :: rest) := by
  rintro d ⟨⟩
  exact .inr rfl

/-- The piece of a query is read as these lexemes, whatever comes after it that ends a word. -/
def Lexes (cs : List Char) (ls : List Lexeme) : Prop :=
  ∀ rest, EndsWord rest → lexFrom .between (cs ++ rest) = (lexFrom .between rest).map (ls ++ ·)

theorem lexFrom_step {m next : Mode} {c : Char} {ls : List Lexeme} (h : m.step c = some (ls, next))
    (cs : List Char) : lexFrom m (c :: cs) = (lexFrom next cs).map (ls ++ ·) := by
  rw [lexFrom, h]
  rfl

theorem lexFrom_on {m next : Mode} {c : Char} (h : m.step c = some ([], next)) (cs : List Char) :
    lexFrom m (c :: cs) = lexFrom next cs := by
  rw [lexFrom_step h]
  exact Option.map_id'

theorem lexFrom_blank {c : Char} (h : isBlank c) (cs : List Char) :
    lexFrom .between (c :: cs) = lexFrom .between cs := by
  exact lexFrom_on (by rw [Mode.step, startLexeme, if_pos h]) cs

theorem lexFrom_operator {c : Char} {l : Lexeme} (hblank : isBlank c = false)
    (h : operator? c = some l) (cs : List Char) :
    lexFrom .between (c :: cs) = (lexFrom .between cs).map (l :: ·) := by
  have hstep : Mode.step c .between = some ([l], .between) := by
    simp [Mode.step, startLexeme, hblank, h]
  exact lexFrom_step hstep cs

theorem lexFrom_adjacent (cs : List Char) :
    lexFrom .between ('<' :: '-' :: '>' :: cs) = (lexFrom .between cs).map (.gap 1 :: ·) := by
  have hopen : Mode.step '<' .between = some ([], .gap []) := by decide
  have hinside : Mode.step '-' (.gap []) = some ([], .gap ['-']) := by decide
  have hclose : Mode.step '>' (.gap ['-']) = some ([.gap 1], .between) := by decide
  rw [lexFrom_on hopen, lexFrom_on hinside, lexFrom_step hclose]
  rfl

/-- The character goes on a word that is being read. -/
structure InWord (c : Char) : Prop where
  blank : isBlank c = false
  operator : operator? c = none
  colon : c ≠ ':'
  less : c ≠ '<'

theorem inWord_of_alphanumeric {c : Char} (h : isAlphanumeric c) : InWord c where
  blank := isBlank_of_alphanumeric h
  operator := operator_of_alphanumeric h
  colon := ne_of_alphanumeric h (by decide)
  less := ne_of_alphanumeric h (by decide)

theorem lexFrom_inside {text w rest : List Char} (hw : ∀ c ∈ w, InWord c) :
    lexFrom (.word text) (w ++ rest) = lexFrom (.word (text ++ w)) rest := by
  induction w generalizing text with
  | nil => simp
  | cons c w ih =>
    have hc := hw c List.mem_cons_self
    have hstep : Mode.step c (.word text) = some ([], .word (text ++ [c])) := by
      simp [Mode.step, hc.blank, hc.operator, hc.colon, hc.less]
    rw [List.cons_append, lexFrom_on hstep, ih fun d hd => hw d (List.mem_cons_of_mem c hd)]
    simp

theorem lexFrom_end {text rest : List Char} (h : EndsWord rest) :
    lexFrom (.word text) rest = (lexFrom .between rest).map (.word text false :: ·) := by
  cases rest with
  | nil => rfl
  | cons c rest =>
    have hcolon : c ≠ ':' := by
      rintro rfl
      exact absurd (h ':' rfl) (by decide)
    have hends : (isBlank c || (operator? c).isSome || decide (c = '<')) = true := by
      simpa using .inl (h c rfl)
    have hends' : isBlank c || (operator? c).isSome || c = '<' := hends
    simp only [lexFrom, Mode.step, if_neg hcolon, if_pos hends']
    cases startLexeme c with
    | none => rfl
    | some read => cases hrest : lexFrom read.2 rest <;> simp [hrest]

theorem lexes_text {w : List Char} (hne : w ≠ []) (hw : ∀ c ∈ w, InWord c) :
    Lexes w [.word w false] := by
  intro rest hrest
  obtain ⟨c, w, rfl⟩ := List.exists_cons_of_ne_nil hne
  have hc := hw c List.mem_cons_self
  have hstart : Mode.step c .between = some ([], .word [c]) := by
    simp [Mode.step, startLexeme, hc.blank, hc.operator, hc.colon, hc.less]
  rw [List.cons_append, lexFrom_on hstart,
    lexFrom_inside fun d hd => hw d (List.mem_cons_of_mem c hd), lexFrom_end hrest]
  rfl

theorem lexes_word {w : List Char} (hne : w ≠ []) (hw : ∀ c ∈ w, isAlphanumeric c) :
    Lexes w [.word w false] :=
  lexes_text hne fun c hc => inWord_of_alphanumeric (hw c hc)

theorem lexes_not {cs : List Char} {ls : List Lexeme} (h : Lexes cs ls) :
    Lexes ('!' :: cs) (.bang :: ls) := by
  intro rest hrest
  rw [List.cons_append, lexFrom_operator (by decide) rfl, h rest hrest, Option.map_map]
  rfl

theorem lexes_bracketed {cs : List Char} {ls : List Lexeme} (h : Lexes cs ls) :
    Lexes ('(' :: cs ++ [')']) (.opening :: ls ++ [.closing]) := by
  intro rest hrest
  have hclosing : cs ++ [')'] ++ rest = cs ++ ')' :: rest := by simp
  rw [List.cons_append, List.cons_append, lexFrom_operator (by decide) rfl, hclosing,
    h _ (endsWord_closing rest), lexFrom_operator (by decide) rfl, Option.map_map, Option.map_map]
  refine congrArg (fun f => Option.map f _) (funext fun ls' => ?_)
  simp

/-- Pieces with an operator between them are read one after the other. -/
theorem lexes_intercalate {α : Type} {sep : List Char} {l : Lexeme}
    (hsep : ∀ rest, EndsWord (sep ++ rest))
    (hread : ∀ rest, lexFrom .between (sep ++ rest) = (lexFrom .between rest).map (l :: ·))
    {f : α → List Char} {g : α → List Lexeme} {xs : List α} (hne : xs ≠ [])
    (h : ∀ x ∈ xs, Lexes (f x) (g x)) :
    Lexes (sep.intercalate (xs.map f)) ([l].intercalate (xs.map g)) := by
  induction xs with
  | nil => exact absurd rfl hne
  | cons x xs ih =>
    have hx := h x List.mem_cons_self
    cases xs with
    | nil => simpa using hx
    | cons y ys =>
      have hrest := ih (List.cons_ne_nil y ys) fun z hz => h z (List.mem_cons_of_mem x hz)
      intro rest hends
      simp only [List.map_cons, List.intercalate_cons_cons] at hrest ⊢
      rw [List.append_assoc, List.append_assoc, hx _ (hsep _), hread, hrest rest hends,
        Option.map_map, Option.map_map]
      refine congrArg (fun f => Option.map f _) (funext fun ls => ?_)
      simp

/-- Words with `<->` between them. -/
theorem lexes_run {ws : List (List Char)} (hne : ws ≠ [])
    (hws : ∀ w ∈ ws, w ≠ [] ∧ ∀ c ∈ w, isAlphanumeric c) :
    Lexes (" <-> ".toList.intercalate ws)
      ([.gap 1].intercalate (ws.map fun w => [.word w false])) := by
  have hread (rest : List Char) : lexFrom .between (" <-> ".toList ++ rest) =
      (lexFrom .between rest).map (.gap 1 :: ·) := by
    have hblank (cs : List Char) : lexFrom .between (' ' :: cs) = lexFrom .between cs :=
      lexFrom_blank (by decide) cs
    exact (hblank _).trans ((lexFrom_adjacent _).trans (congrArg _ (hblank rest)))
  have hlexes := lexes_intercalate (fun rest => endsWord_blank (by decide) _) hread (f := id) hne
    fun w hw => lexes_word (hws w hw).1 (hws w hw).2
  rwa [List.map_id] at hlexes

theorem lex_of_lexes {cs : List Char} {ls : List Lexeme} (h : Lexes cs ls) : lex cs = some ls := by
  have hall := h [] endsWord_nil
  rw [List.append_nil] at hall
  rw [lex, hall]
  simp [lexFrom, Mode.finish]

end Lexing

theorem runsFrom_append {w : List Char} (hw : ∀ c ∈ w, isAlphanumeric c) (text rest : List Char) :
    runsFrom false text (w ++ rest) = runsFrom false (text ++ w) rest := by
  induction w generalizing text with
  | nil => simp
  | cons c w ih =>
    have hc := hw c List.mem_cons_self
    have hless := ne_of_alphanumeric hc (d := '<') (by decide)
    have hinside : (if c = '<' then true else if c = '>' then false else false) = false := by
      simp [hless]
    rw [List.cons_append, runsFrom]
    simp only [hinside, hc, Bool.not_true, Bool.or_self, Bool.false_eq_true, if_false]
    rw [ih (fun d hd => hw d (List.mem_cons_of_mem c hd)), List.append_assoc]
    rfl

theorem words_word {w : List Char} (h : IsWord w) :
    words (String.ofList w) = [String.ofList w] := by
  have hruns : runsFrom false [] w = [w] := by
    have hall := runsFrom_append h.alphanumeric [] []
    rwa [List.append_nil, List.nil_append, runsFrom, if_neg h.ne_nil] at hall
  rw [words, String.toList_ofList, hruns, List.map_singleton, h.lowered]

namespace Query

open Newsfeed.Reading (tail_flatMap intercalate_cons length_le_flatMap length_le_intercalate)

section Parsing

/-- No operator of the level comes next. -/
def Halts (join? : Lexeme → Option (Query → Query → Query)) (rest : List Lexeme) : Prop :=
  ∀ l ∈ rest.head?, join? l = none

/-- The reader takes the lexemes for the query, whatever comes after them that it does not go on
with. -/
def Reads (r : Reader) (tail : List Lexeme → Prop) (ls : List Lexeme) (q : Query) : Prop :=
  ∀ rest, tail rest → r (ls ++ rest) = some (q, rest)

variable {r : Reader} {tail : List Lexeme → Prop}
  {join? : Lexeme → Option (Query → Query → Query)} {l : Lexeme} {join : Query → Query → Query}

theorem chainFrom_halts {rest : List Lexeme} (h : Halts join? rest) (n : Nat) (left : Query) :
    chainFrom r join? n left rest = some (left, rest) := by
  cases n with
  | zero => rfl
  | succ n =>
    cases rest with
    | nil => rfl
    | cons l rest => rw [chainFrom, h l rfl]

section Items

variable {α : Type} {lexemes : α → List Lexeme} {query : α → Query} {x : α} {xs : List α}

theorem chainFrom_reads (hjoin : join? l = some join) (hl : ∀ rest, tail (l :: rest))
    (hxs : ∀ x ∈ xs, Reads r tail (lexemes x) (query x)) {rest : List Lexeme}
    (htail : tail rest) (hhalts : Halts join? rest) {n : Nat} (hn : xs.length ≤ n) (left : Query) :
    chainFrom r join? n left ((xs.flatMap fun x => l :: lexemes x) ++ rest) =
      some ((xs.map query).foldl join left, rest) := by
  induction xs generalizing n left with
  | nil => exact chainFrom_halts hhalts n left
  | cons x xs ih =>
    obtain ⟨n, rfl⟩ := Nat.exists_eq_add_one.mpr (Nat.lt_of_lt_of_le (Nat.succ_pos _) hn)
    rw [List.flatMap_cons, List.append_assoc, List.cons_append, chainFrom, hjoin,
      hxs x List.mem_cons_self _ (tail_flatMap hl htail)]
    exact ih (fun y hy => hxs y (List.mem_cons_of_mem x hy)) (Nat.le_of_succ_le_succ hn) _

/-- Operands with one operator between them are grouped to the left. -/
theorem chain_reads (hjoin : join? l = some join) (hl : ∀ rest, tail (l :: rest))
    (hxs : ∀ y ∈ x :: xs, Reads r tail (lexemes y) (query y)) :
    Reads (chain r join?) (fun rest => tail rest ∧ Halts join? rest)
      ([l].intercalate ((x :: xs).map lexemes)) ((xs.map query).foldl join (query x)) := by
  rintro rest ⟨htail, hhalts⟩
  have hrest := fun y hy => hxs y (List.mem_cons_of_mem x hy)
  rw [intercalate_cons, List.append_assoc, chain,
    hxs x List.mem_cons_self _ (tail_flatMap hl htail)]
  refine chainFrom_reads hjoin hl hrest htail hhalts ?_ _
  rw [List.length_append]
  exact Nat.le_add_right_of_le length_le_flatMap

end Items

/-- An operand alone is a chain. -/
theorem chain_reads_one {ls : List Lexeme} {q : Query} (h : Reads r tail ls q) :
    Reads (chain r join?) (fun rest => tail rest ∧ Halts join? rest) ls q := by
  rintro rest ⟨htail, hhalts⟩
  rw [chain, h rest htail]
  exact chainFrom_halts hhalts _ q

theorem ofWord_eq_run {text : List Char} {w : String} {ws : List String}
    (h : words (String.ofList text) = w :: ws) : ofWord? text false = some (run w ws) := by
  rw [ofWord?, h, run, List.foldl_map]
  rfl

theorem ofWord_word {w : List Char} (h : IsWord w) :
    ofWord? w false = some (term (String.ofList w) false) :=
  ofWord_eq_run (words_word h)

theorem operand_ofWord {text : List Char} {starred : Bool} {q : Query}
    (h : ofWord? text starred = some q) (n : Nat) :
    Reads (operand (n + 1)) (fun _ => True) [.word text starred] q := by
  intro rest _
  rw [List.singleton_append, operand, h]
  rfl

theorem operand_word {w : List Char} (h : IsWord w) (n : Nat) :
    Reads (operand (n + 1)) (fun _ => True) [.word w false] (term (String.ofList w) false) :=
  operand_ofWord (ofWord_word h) n

theorem operand_not {n : Nat} {ls : List Lexeme} {q : Query} (h : Reads (operand n) tail ls q) :
    Reads (operand (n + 1)) tail (.bang :: ls) (no q) := by
  intro rest hrest
  rw [List.cons_append, operand, h rest hrest]
  rfl

theorem sequence_run {w : List Char} {ws : List (List Char)} (h : ∀ v ∈ w :: ws, IsWord v)
    (n : Nat) : Reads (sequence (operand (n + 1))) (fun rest => True ∧ Halts joinGap? rest)
      ([.gap 1].intercalate ((w :: ws).map fun v => [.word v false]))
      (run (String.ofList w) (ws.map String.ofList)) := by
  rw [run, List.map_map]
  exact chain_reads rfl (fun _ => trivial) fun v hv => operand_word (h v hv) n

theorem operand_bracketed {w : List Char} {ws : List (List Char)} (h : ∀ v ∈ w :: ws, IsWord v)
    (n : Nat) : Reads (operand (n + 2)) (fun _ => True)
      (.opening :: [.gap 1].intercalate ((w :: ws).map fun v => [.word v false]) ++ [.closing])
      (run (String.ofList w) (ws.map String.ofList)) := by
  intro rest _
  have hhalts : Halts joinGap? (.closing :: rest) ∧ Halts joinAmp? (.closing :: rest) ∧
      Halts joinBar? (.closing :: rest) := by simp [Halts, joinGap?, joinAmp?, joinBar?]
  have hread : Reads (disjunction (operand (n + 1))) _ _ _ :=
    chain_reads_one (chain_reads_one (sequence_run h n))
  rw [List.append_assoc, List.cons_append, List.singleton_append, operand,
    hread _ ⟨⟨⟨trivial, hhalts.1⟩, hhalts.2.1⟩, hhalts.2.2⟩]

section Items

variable {α : Type} {lexemes : α → List Lexeme} {query : α → Query} {x : α} {xs : List α}

end Items

/-- A text without blanks and operators is read as the run of its words. -/
theorem read_text {text : List Char} (hne : text ≠ []) (htext : ∀ c ∈ text, InWord c) {w : String}
    {ws : List String} (h : words (String.ofList text) = w :: ws) :
    read? (String.ofList text) = some (run w ws) := by
  have hoperand : Reads (disjunction (operand 1)) _ _ _ :=
    chain_reads_one (chain_reads_one (chain_reads_one (operand_ofWord (ofWord_eq_run h) 0)))
  have hread := hoperand [] (by simp [Halts])
  rw [List.append_nil] at hread
  rw [read?, String.toList_ofList, lex_of_lexes (lexes_text hne htext), Option.bind_some,
    ofLexemes?, List.length_singleton, hread]

end Parsing

end Query

end Newsfeed.FullText
