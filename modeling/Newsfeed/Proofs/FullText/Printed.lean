import Newsfeed.Proofs.FullText.Grammar
import Newsfeed.Proofs.FullText.Written
import Newsfeed.Proofs.Text.Settled

/-!
Queries written out, in brackets only where an operand is looser than its place. What is written is
read back, and no way to write the query down has fewer brackets.
-/

namespace Newsfeed.FullText

open Newsfeed.Text

/-- How a lexeme is written, with spaces around what stands between two operands. -/
def Lexeme.spelling : Lexeme → List Char
  | amp => " & ".toList
  | bar => " | ".toList
  | bang => ['!']
  | opening => ['(']
  | closing => [')']
  | gap distance =>
    " <".toList ++ (if distance = 1 then ['-'] else Nat.toDigits 10 distance) ++ "> ".toList
  | word text starred => text ++ if starred then [':', '*'] else []

namespace Query

def Level.tightness : Level → Nat
  | disjunction => 0
  | conjunction => 1
  | sequence => 2
  | operand => 3

/-- The level of the outermost operator. -/
def level : Query → Level
  | either _ _ => .disjunction
  | both _ _ => .conjunction
  | follow _ _ _ => .sequence
  | no _ => .operand
  | term _ _ => .operand

/-- Brackets around the lexemes of a query that is looser than its place. -/
def enclose (place : Level) (q : Query) (ls : List Lexeme) : List Lexeme :=
  if place.tightness ≤ q.level.tightness then ls else .opening :: ls ++ [.closing]

/-- The lexemes of a query. The operators group to the left, so a right operand of the same level
is in brackets. -/
def lexemes : Query → List Lexeme
  | term w starred => [.word w.toList starred]
  | no a => .bang :: enclose .operand a a.lexemes
  | follow l r distance =>
    enclose .sequence l l.lexemes ++ .gap distance :: enclose .operand r r.lexemes
  | both a b => enclose .conjunction a a.lexemes ++ .amp :: enclose .sequence b b.lexemes
  | either a b => enclose .disjunction a a.lexemes ++ .bar :: enclose .conjunction b b.lexemes

def text (q : Query) : String := String.ofList (q.lexemes.flatMap Lexeme.spelling)

/-- Each word is a word to the index too, and each distance a number of 64 bits. -/
def Writable : Query → Prop
  | term w _ => words w = [w]
  | both a b => a.Writable ∧ b.Writable
  | either a b => a.Writable ∧ b.Writable
  | no a => a.Writable
  | follow l r distance => distance < UInt64.size ∧ l.Writable ∧ r.Writable

end Query

/-- What the words of a text leave as it is, is a word. Only `İ` could be one in a text that is not
all letters and numbers, and it does not stay as it is. -/
theorem isWord_of_words {w : String} (h : words w = [w]) : IsWord w.toList := by
  have hmem : w ∈ words w := by simp [h]
  obtain ⟨run, hrun, hw⟩ := List.mem_map.mp hmem
  have hlowered : lowerChars run = w.toList := by rw [← hw, String.toList_ofList]
  obtain ⟨hne, halphanumeric, before, after, hsplit, -⟩ := mem_runsFrom_iff.mp hrun
  have hdotted : '\u0130' ∉ run := by
    intro hmem
    have hmem' : '\u0130' ∈ lowerFrom [] run := by
      rw [← lowerChars, hlowered, hsplit]
      simp [hmem]
    exact absurd (settled_of_mem hmem').2 (by decide +kernel)
  have hletters := lowerChars_alphanumeric halphanumeric hdotted
  refine ⟨?_, by rwa [hlowered] at hletters, ?_⟩
  · obtain ⟨d, hd, -⟩ := exists_alphanumeric halphanumeric hne
    rw [← hlowered]
    exact List.ne_nil_of_mem hd
  · rw [← hlowered]
    exact lowerChars_lowerChars run

section Lexing

variable {cs ds : List Char} {ls ms : List Lexeme} {l : Lexeme}

theorem isFlag_of_ends {c : Char} (h : isBlank c ∨ (operator? c).isSome) : isFlag c = false := by
  have hflags : ∀ d ∈ "*abcdABCD".toList, isBlank d = false ∧ operator? d = none :=
    List.all_iff_forall_prop.mp (by decide)
  rw [isFlag, ← Bool.not_eq_true, List.contains_iff_mem]
  intro hmem
  obtain ⟨hblank, hoperator⟩ := hflags c hmem
  simp [hblank, hoperator] at h

theorem lexFrom_flags_end {text rest : List Char} {starred : Bool} (h : EndsWord rest) :
    lexFrom (.flags text starred true) rest =
      (lexFrom .between rest).map (.word text starred :: ·) := by
  cases rest with
  | nil => rfl
  | cons c rest =>
    have hflag : isFlag c = false := isFlag_of_ends (h c rfl)
    simp only [lexFrom, Mode.step, hflag, Bool.false_eq_true, if_false, if_true]
    cases startLexeme c with
    | none => rfl
    | some read => cases hrest : lexFrom read.2 rest <;> simp [hrest]

theorem lexes_starred {w : List Char} (hne : w ≠ []) (hw : ∀ c ∈ w, InWord c) :
    Lexes (w ++ [':', '*']) [.word w true] := by
  intro rest hrest
  obtain ⟨c, w, rfl⟩ := List.exists_cons_of_ne_nil hne
  have hc := hw c List.mem_cons_self
  have hstart : Mode.step c .between = some ([], .word [c]) := by
    simp [Mode.step, startLexeme, hc.blank, hc.operator, hc.colon, hc.less]
  have hcolon : Mode.step ':' (.word (c :: w)) = some ([], .flags (c :: w) false false) := rfl
  have hstar : Mode.step '*' (.flags (c :: w) false false) = some ([], .flags (c :: w) true true) :=
    rfl
  rw [List.append_assoc, List.cons_append, lexFrom_on hstart,
    lexFrom_inside fun d hd => hw d (List.mem_cons_of_mem c hd), List.singleton_append,
    List.cons_append, List.cons_append, List.nil_append, lexFrom_on hcolon, lexFrom_on hstar,
    lexFrom_flags_end hrest]
  rfl

theorem lexFrom_gap {inside : List Char} (hinside : '>' ∉ inside) {read : List Char} {d : Nat}
    (h : gapDistance? (read ++ inside) = some d) (rest : List Char) :
    lexFrom (.gap read) (inside ++ '>' :: rest) = (lexFrom .between rest).map (.gap d :: ·) := by
  induction inside generalizing read with
  | nil =>
    rw [List.append_nil] at h
    have hclose : Mode.step '>' (.gap read) = some ([.gap d], .between) := by simp [Mode.step, h]
    exact lexFrom_step hclose rest
  | cons c inside ih =>
    obtain ⟨hc, hrest⟩ := List.ne_and_not_mem_of_not_mem_cons hinside
    have hon : Mode.step c (.gap read) = some ([], .gap (read ++ [c])) := by
      rw [Mode.step, if_neg hc.symm]
    rw [List.cons_append, lexFrom_on hon]
    exact ih hrest (by simpa using h)

theorem gapDistance_toDigits {n : Nat} (hn : n < UInt64.size) :
    gapDistance? (Nat.toDigits 10 n) = some n := by
  have hdigit : ∀ c ∈ Nat.toDigits 10 n, c.isDigit := fun c hc =>
    Nat.isDigit_of_mem_toDigits (by decide) (by decide) hc
  have hread : (readNat? (Nat.toDigits 10 n)).filter (· < UInt64.size) = some n := by
    rw [readNat_toDigits]
    simp [Option.filter, hn]
  rw [gapDistance?, if_neg]
  · unfold readUInt64?
    split
    · rename_i ds hplus
      exact absurd (hdigit '+' (hplus ▸ List.mem_cons_self)) (by decide)
    · exact hread
  · intro hminus
    exact absurd (hdigit '-' (hminus ▸ List.mem_cons_self)) (by decide)

/-- An operator between two operands is read with the blanks around it. -/
def Separates (l : Lexeme) : Prop :=
  ∀ rest, lexFrom .between (l.spelling ++ rest) = (lexFrom .between rest).map (l :: ·)

theorem separates_operator {c : Char} (hblank : isBlank c = false) (h : operator? c = some l)
    (hspelling : l.spelling = [' ', c, ' ']) : Separates l := by
  intro rest
  rw [hspelling, List.cons_append, lexFrom_blank (by decide), List.cons_append,
    lexFrom_operator hblank h, List.cons_append, lexFrom_blank (by decide), List.nil_append]

theorem separates_gap {distance : Nat} (h : distance < UInt64.size) :
    Separates (.gap distance) := by
  intro rest
  have hopen : Mode.step '<' .between = some ([], .gap []) := by decide
  have hclosed {inside : List Char} (hinside : '>' ∉ inside)
      (h : gapDistance? inside = some distance) :
      lexFrom .between (' ' :: '<' :: (inside ++ '>' :: ' ' :: rest)) =
        (lexFrom .between rest).map (.gap distance :: ·) := by
    have hread : lexFrom (.gap []) (inside ++ '>' :: ' ' :: rest) = _ :=
      lexFrom_gap hinside (by rwa [List.nil_append]) (' ' :: rest)
    rw [lexFrom_blank (by decide), lexFrom_on hopen, hread, lexFrom_blank (by decide)]
  have hspelling : (Lexeme.gap distance).spelling ++ rest = ' ' :: '<' ::
      ((if distance = 1 then ['-'] else Nat.toDigits 10 distance) ++ '>' :: ' ' :: rest) := by
    simp [Lexeme.spelling]
  rw [hspelling]
  split
  · rename_i hone
    exact hclosed (by decide) (by rw [hone]; rfl)
  · refine hclosed (fun hmem => ?_) (gapDistance_toDigits h)
    have hdigit := Nat.isDigit_of_mem_toDigits (by decide) (by decide) hmem
    exact absurd hdigit (by decide)

theorem lexes_separated (hsep : Separates l) (hblank : ∃ c rest, l.spelling = c :: rest ∧ isBlank c)
    (h : Lexes cs ls) (h' : Lexes ds ms) : Lexes (cs ++ (l.spelling ++ ds)) (ls ++ l :: ms) := by
  obtain ⟨c, others, hspelling, hc⟩ := hblank
  have hends (rest : List Char) : EndsWord (l.spelling ++ rest) := by
    rw [hspelling]
    exact endsWord_blank hc _
  have hall := lexes_intercalate hends hsep (f := Prod.fst) (g := Prod.snd)
    (List.cons_ne_nil (cs, ls) [(ds, ms)]) (by simp [h, h'])
  simpa using hall

end Lexing

namespace Query

variable {q : Query} {place : Level} {ls : List Lexeme}

theorem lexes_enclosed (h : Lexes (ls.flatMap Lexeme.spelling) ls) (place : Level) (q : Query) :
    Lexes ((enclose place q ls).flatMap Lexeme.spelling) (enclose place q ls) := by
  unfold enclose
  split
  · exact h
  · have hbracketed := lexes_bracketed h
    simpa [Lexeme.spelling] using hbracketed

theorem lexes_lexemes (hq : q.Writable) : Lexes (q.lexemes.flatMap Lexeme.spelling) q.lexemes := by
  induction q with
  | term w starred =>
    have hword : IsWord w.toList := isWord_of_words hq
    have hin : ∀ c ∈ w.toList, InWord c := fun c hc =>
      inWord_of_alphanumeric (hword.alphanumeric c hc)
    cases starred with
    | false => simpa [lexemes, Lexeme.spelling] using lexes_text hword.ne_nil hin
    | true => simpa [lexemes, Lexeme.spelling] using lexes_starred hword.ne_nil hin
  | both a b iha ihb =>
    have hamp : Separates .amp := separates_operator (c := '&') (by decide) rfl rfl
    simpa [lexemes] using lexes_separated hamp ⟨' ', _, rfl, by decide⟩
      (lexes_enclosed (iha hq.1) .conjunction a) (lexes_enclosed (ihb hq.2) .sequence b)
  | either a b iha ihb =>
    have hbar : Separates .bar := separates_operator (c := '|') (by decide) rfl rfl
    simpa [lexemes] using lexes_separated hbar ⟨' ', _, rfl, by decide⟩
      (lexes_enclosed (iha hq.1) .disjunction a) (lexes_enclosed (ihb hq.2) .conjunction b)
  | no a ih =>
    simpa [lexemes, Lexeme.spelling] using lexes_not (lexes_enclosed (ih hq) .operand a)
  | follow l r distance ihl ihr =>
    obtain ⟨hdistance, hl, hr⟩ := hq
    simpa [lexemes] using lexes_separated (separates_gap hdistance) ⟨' ', _, rfl, by decide⟩
      (lexes_enclosed (ihl hl) .sequence l) (lexes_enclosed (ihr hr) .operand r)

/-- The written query has the lexemes that it was written with. -/
theorem lex_text (hq : q.Writable) : lex q.text.toList = some q.lexemes := by
  rw [text, String.toList_ofList]
  exact lex_of_lexes (lexes_lexemes hq)

/-! ### Derivations -/

/-- What a level derives, each looser level derives too. -/
theorem Derives.loosen {tight loose : Level} (h : Derives tight ls q)
    (hle : loose.tightness ≤ tight.tightness) : Derives loose ls q := by
  cases loose with
  | disjunction =>
    cases tight with
    | disjunction => exact h
    | conjunction => exact .ofConjunction h
    | sequence => exact .ofConjunction (.ofSequence h)
    | operand => exact .ofConjunction (.ofSequence (.ofOperand h))
  | conjunction =>
    cases tight with
    | disjunction => exact absurd hle (by decide)
    | conjunction => exact h
    | sequence => exact .ofSequence h
    | operand => exact .ofSequence (.ofOperand h)
  | sequence =>
    cases tight with
    | sequence => exact h
    | operand => exact .ofOperand h
    | _ => exact absurd hle (by decide)
  | operand =>
    cases tight with
    | operand => exact h
    | _ => exact absurd hle (by decide)

theorem derives_enclosed (h : Derives q.level ls q) (place : Level) :
    Derives place (enclose place q ls) q := by
  unfold enclose
  split
  · rename_i hle
    exact h.loosen hle
  · have hwhole : Derives .disjunction ls q := h.loosen (Nat.zero_le _)
    exact hwhole.bracketed.loosen (by cases place <;> decide)

theorem derives_lexemes (hq : q.Writable) : Derives q.level q.lexemes q := by
  induction q with
  | term w starred => exact .word (by rwa [String.ofList_toList])
  | both a b iha ihb => exact .both (derives_enclosed (iha hq.1) _) (derives_enclosed (ihb hq.2) _)
  | either a b iha ihb =>
    exact .either (derives_enclosed (iha hq.1) _) (derives_enclosed (ihb hq.2) _)
  | no a ih => exact .no (derives_enclosed (ih hq) _)
  | follow l r distance ihl ihr =>
    exact .follow (derives_enclosed (ihl hq.2.1) _) (derives_enclosed (ihr hq.2.2) _)

/-! ### Brackets -/

/-- Each word stands for itself alone. -/
def Plain (ls : List Lexeme) : Prop :=
  ∀ l ∈ ls, l.IfWord fun text => words (String.ofList text) = [String.ofList text]

theorem plain_enclosed (h : Plain ls) (place : Level) (q : Query) : Plain (enclose place q ls) := by
  unfold enclose
  split
  · exact h
  · have hclosing : Plain [.closing] := List.forall_mem_singleton.mpr trivial
    exact List.forall_mem_append.mpr ⟨List.forall_mem_cons.mpr ⟨trivial, h⟩, hclosing⟩

theorem plain_joined {ms : List Lexeme} {l : Lexeme} (h : Plain ls) (h' : Plain ms)
    (hl : ∀ P, l.IfWord P) : Plain (ls ++ l :: ms) :=
  List.forall_mem_append.mpr ⟨h, List.forall_mem_cons.mpr ⟨hl _, h'⟩⟩

theorem plain_lexemes (hq : q.Writable) : Plain q.lexemes := by
  induction q with
  | term w starred =>
    have hword : words (String.ofList w.toList) = [String.ofList w.toList] := by
      rw [String.ofList_toList]
      exact hq
    exact List.forall_mem_singleton.mpr hword
  | both a b iha ihb =>
    exact plain_joined (plain_enclosed (iha hq.1) _ a) (plain_enclosed (ihb hq.2) _ b)
      fun _ => trivial
  | either a b iha ihb =>
    exact plain_joined (plain_enclosed (iha hq.1) _ a) (plain_enclosed (ihb hq.2) _ b)
      fun _ => trivial
  | no a ih => exact List.forall_mem_cons.mpr ⟨trivial, plain_enclosed (ih hq) _ a⟩
  | follow l r distance ihl ihr =>
    exact plain_joined (plain_enclosed (ihl hq.2.1) _ l) (plain_enclosed (ihr hq.2.2) _ r)
      fun _ => trivial

/-- How many brackets a query has in its place. -/
def brackets (place : Level) (q : Query) : Nat := (enclose place q q.lexemes).count .opening

theorem brackets_level (q : Query) : brackets q.level q = q.lexemes.count .opening := by
  rw [brackets, enclose, if_pos (Nat.le_refl _)]

theorem brackets_disjunction (q : Query) : brackets .disjunction q = q.lexemes.count .opening := by
  have hwhole : Level.disjunction.tightness ≤ q.level.tightness := Nat.zero_le _
  rw [brackets, enclose, if_pos hwhole]

theorem brackets_mono {loose tight : Level} (h : loose.tightness ≤ tight.tightness) (q : Query) :
    brackets loose q ≤ brackets tight q := by
  unfold brackets enclose
  split
  · split
    · exact Nat.le_refl _
    · simp
  · have htight : ¬tight.tightness ≤ q.level.tightness := by omega
    simp only [if_neg htight, Nat.le_refl]

theorem brackets_le (place : Level) (q : Query) :
    brackets place q ≤ brackets .disjunction q + 1 := by
  rw [brackets_disjunction, brackets, enclose]
  split
  · exact Nat.le_succ _
  · simp

theorem count_joined {l : Lexeme} (hl : l ≠ .opening) (ls ms : List Lexeme) :
    (ls ++ l :: ms).count .opening = ls.count .opening + ms.count .opening := by
  rw [List.count_append, List.count_cons_of_ne hl]

/-- If the parts of a query have their brackets, so does the whole. -/
theorem brackets_joined {left right : Level} {a b : Query} {l : Lexeme} {ms : List Lexeme}
    (hl : l ≠ .opening)
    (hq : q.lexemes = enclose left a a.lexemes ++ l :: enclose right b b.lexemes)
    (hls : Plain (ls ++ l :: ms)) (ha : Plain ls → brackets left a ≤ ls.count .opening)
    (hb : Plain ms → brackets right b ≤ ms.count .opening) :
    brackets q.level q ≤ (ls ++ l :: ms).count .opening := by
  obtain ⟨hleft, hright⟩ := List.forall_mem_append.mp hls
  rw [brackets_level, hq, count_joined hl, count_joined hl]
  exact Nat.add_le_add (ha hleft) (hb (List.forall_mem_cons.mp hright).2)

/-- No derivation of a query from words that stand for themselves has fewer brackets. -/
theorem brackets_fewest (h : Derives place ls q) (hls : Plain ls) :
    brackets place q ≤ ls.count .opening := by
  induction h with
  | ofConjunction _ ih => exact Nat.le_trans (brackets_mono (by decide) _) (ih hls)
  | ofSequence _ ih => exact Nat.le_trans (brackets_mono (by decide) _) (ih hls)
  | ofOperand _ ih => exact Nat.le_trans (brackets_mono (by decide) _) (ih hls)
  | either _ _ iha ihb =>
    exact brackets_joined (q := .either _ _) (by decide) rfl hls iha ihb
  | both _ _ iha ihb =>
    exact brackets_joined (q := .both _ _) (by decide) rfl hls iha ihb
  | follow _ _ ihl ihr =>
    exact brackets_joined (q := .follow _ _ _) (by simp) rfl hls ihl ihr
  | @no ls a _ ih =>
    have hparts : brackets .operand (.no a) = brackets .operand a :=
      (brackets_level (.no a)).trans (List.count_cons_of_ne (by decide))
    rw [hparts, List.count_cons_of_ne (by decide)]
    exact ih (List.forall_mem_cons.mp hls).2
  | @bracketed ls q _ ih =>
    have hinside := ih (List.forall_mem_cons.mp (List.forall_mem_append.mp hls).1).2
    have houter := brackets_le .operand q
    rw [List.count_append, List.count_cons_self]
    omega
  | @word text starred w _ =>
    have hnone : brackets .operand (.term w starred) = 0 := brackets_level (.term w starred)
    omega
  | @run text starred w last ws h =>
    have hone := hls _ List.mem_cons_self
    rw [Lexeme.IfWord, h] at hone
    simp at hone

/-- A text is read as some query just where its lexemes are a disjunction of the grammar, and as the
query that the grammar derives from them. A query is read back from its text, and its brackets are
the fewest that its words can be written with. -/
theorem read_by_grammar :
    (∀ s, (∃ q, read? s = some q) ↔ ∃ ls, lex s.toList = some ls ∧ Grammatical .disjunction ls) ∧
    (∀ s q, read? s = some q ↔ ∃ ls, lex s.toList = some ls ∧ Derives .disjunction ls q) ∧
    ∀ q : Query, q.Writable →
      read? q.text = some q ∧ lex q.text.toList = some q.lexemes ∧ Plain q.lexemes ∧
      ∀ ls, Derives .disjunction ls q → Plain ls →
        q.lexemes.count .opening ≤ ls.count .opening := by
  refine ⟨fun s => exists_read_iff, fun s q => read_iff_derives, fun q hq => ?_⟩
  have hderives : Derives .disjunction q.lexemes q := (derives_lexemes hq).loosen (Nat.zero_le _)
  refine ⟨read_iff_derives.mpr ⟨_, lex_text hq, hderives⟩, lex_text hq, plain_lexemes hq, ?_⟩
  intro ls hls hplain
  rw [← brackets_disjunction]
  exact brackets_fewest hls hplain

/-- A word and neither of two others, beside a run whose right part is a run. -/
def nestedQuery : Query :=
  both (both (term "a" false) (no (either (term "b" false) (term "c" true))))
    (follow (follow (term "d" false) (term "e" false) 3)
      (follow (term "f" false) (term "g" true) 1) 1)

theorem read_by_grammar_nested :
    nestedQuery.Writable ∧ nestedQuery.text = "a & !(b | c:*) & d <3> e <-> (f <-> g:*)" ∧
      read? "a & !(b | c:*) & d <3> e <-> (f <-> g:*)" = some nestedQuery ∧
      ∀ ls, Derives .disjunction ls nestedQuery → Plain ls → 2 ≤ ls.count .opening := by
  have hwords : ∀ w ∈ ["a", "b", "c", "d", "e", "f", "g"], words w = [w] := by decide +kernel
  have hwritable : nestedQuery.Writable := by
    simp [nestedQuery, Writable, hwords, UInt64.size]
  have htext : nestedQuery.text = "a & !(b | c:*) & d <3> e <-> (f <-> g:*)" := by decide +kernel
  obtain ⟨hread, -, -, hfewest⟩ := read_by_grammar.2.2 nestedQuery hwritable
  rw [htext] at hread
  exact ⟨hwritable, htext, hread, hfewest⟩

end Query

end Newsfeed.FullText
