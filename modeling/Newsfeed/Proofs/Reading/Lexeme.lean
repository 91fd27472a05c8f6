import Mathlib.Init

/-!
How the database takes a text apart, be it a statement or a question to the full-text index: into
words, quoted texts and single signs, with spaces between them. In a quoted text a quote is written
twice. What a piece of the text is taken for does not depend on what comes after it, as long as a
word ends there.
-/

namespace Newsfeed.Reading

inductive Lexeme where
  | word (text : List Char)
  | quoted (text : List Char)
  /-- A quoted text that does not end. -/
  | unclosed (text : List Char)
  | sign (c : Char)
  deriving DecidableEq, Repr

/-- What a reader of lexemes is in the middle of. -/
inductive Mode where
  | between
  | word (text : List Char)
  | quoted (text : List Char)
  /-- After a quote in a quoted text, which ends it unless it is written twice. -/
  | closing (text : List Char)
  deriving DecidableEq, Repr

def isWordChar (c : Char) : Bool := c.isAlphanum || c = '_'

section Lexer

variable (quote : Char)

/-- One character between lexemes: those that it completes, and what the reader is in the middle of
after it. -/
def start (c : Char) : List Lexeme × Mode :=
  if isWordChar c then ([], .word [c])
  else if c = quote then ([], .quoted [])
  else if c = ' ' then ([], .between)
  else ([.sign c], .between)

def Mode.step (c : Char) : Mode → List Lexeme × Mode
  | .between => start quote c
  | .word text =>
    if isWordChar c then ([], .word (text ++ [c]))
    else (.word text :: (start quote c).1, (start quote c).2)
  | .quoted text => if c = quote then ([], .closing text) else ([], .quoted (text ++ [c]))
  | .closing text =>
    if c = quote then ([], .quoted (text ++ [quote]))
    else (.quoted text :: (start quote c).1, (start quote c).2)

/-- What the end of the text completes. -/
def Mode.finish : Mode → List Lexeme
  | .between => []
  | .word text => [.word text]
  | .quoted text => [.unclosed text]
  | .closing text => [.quoted text]

/-- The lexemes of a piece of text, and what the reader is in the middle of after it. -/
def scan : Mode → List Char → List Lexeme × Mode
  | m, [] => ([], m)
  | m, c :: cs =>
    ((m.step quote c).1 ++ (scan (m.step quote c).2 cs).1, (scan (m.step quote c).2 cs).2)

def lex (cs : List Char) : List Lexeme :=
  (scan quote .between cs).1 ++ (scan quote .between cs).2.finish

end Lexer

variable {quote : Char} {m : Mode} {cs rest : List Char}

theorem scan_append (m : Mode) (cs rest : List Char) :
    scan quote m (cs ++ rest) =
      ((scan quote m cs).1 ++ (scan quote (scan quote m cs).2 rest).1,
        (scan quote (scan quote m cs).2 rest).2) := by
  induction cs generalizing m with
  | nil => rfl
  | cons c cs ih => simp only [List.cons_append, scan, ih, List.append_assoc]

/-- A word or a quoted text ends before this. -/
def Ends (quote : Char) (rest : List Char) : Prop :=
  ∀ c ∈ rest.head?, isWordChar c = false ∧ c ≠ quote

/-- The reader is not inside a quoted text. -/
def Mode.IsOutside : Mode → Prop
  | .quoted _ => False
  | _ => True

instance (m : Mode) : Decidable m.IsOutside :=
  match m with
  | .between => .isTrue trivial
  | .word _ => .isTrue trivial
  | .quoted _ => .isFalse id
  | .closing _ => .isTrue trivial

/-- What the reader is in the middle of is completed before a text that ends it. -/
theorem scan_ends (hm : m.IsOutside) (h : Ends quote rest) :
    (scan quote m rest).1 ++ (scan quote m rest).2.finish = m.finish ++ lex quote rest := by
  cases rest with
  | nil => simp [scan, lex, Mode.finish]
  | cons c rest =>
    obtain ⟨hword, hquote⟩ := h c rfl
    cases m with
    | between => rfl
    | word text => simp [scan, lex, Mode.step, Mode.finish, hword]
    | quoted text => cases hm
    | closing text => simp [scan, lex, Mode.step, Mode.finish, hquote]

/-- The text is taken apart without regard to what comes after it. -/
def Parts (quote : Char) (cs : List Char) : Prop := (scan quote .between cs).2 = .between

/-- The text is taken apart without regard to what comes after it, if that ends a word. -/
def Stands (quote : Char) (cs : List Char) : Prop := (scan quote .between cs).2.IsOutside

instance (quote : Char) (cs : List Char) : Decidable (Parts quote cs) :=
  inferInstanceAs (Decidable (_ = _))

instance (quote : Char) (cs : List Char) : Decidable (Stands quote cs) :=
  inferInstanceAs (Decidable (Mode.IsOutside _))

/-- The piece of text has these lexemes, whatever comes after it. -/
def Lexes (quote : Char) (tail : List Char → Prop) (cs : List Char) (ls : List Lexeme) : Prop :=
  ∀ rest, tail rest → lex quote (cs ++ rest) = ls ++ lex quote rest

theorem lexes_of_parts (h : Parts quote cs) : Lexes quote (fun _ => True) cs (lex quote cs) := by
  intro rest _
  have hmode : (scan quote .between cs).2 = .between := h
  simp only [lex, scan_append, hmode, Mode.finish, List.append_nil, List.append_assoc]

theorem lexes_of_stands (h : Stands quote cs) : Lexes quote (Ends quote) cs (lex quote cs) := by
  intro rest hrest
  have hends := scan_ends h hrest
  simp only [lex, scan_append, List.append_assoc] at hends ⊢
  rw [hends]

namespace Lexes

variable {tail tail' : List Char → Prop} {ds : List Char} {ls ms : List Lexeme}

theorem append (h : Lexes quote tail cs ls) (h' : Lexes quote tail' ds ms)
    (htail : ∀ rest, tail' rest → tail (ds ++ rest)) : Lexes quote tail' (cs ++ ds) (ls ++ ms) := by
  intro rest hrest
  rw [List.append_assoc, h _ (htail rest hrest), h' rest hrest, List.append_assoc]

theorem mono (h : Lexes quote tail cs ls) (htail : ∀ rest, tail' rest → tail rest) :
    Lexes quote tail' cs ls := fun rest hrest => h rest (htail rest hrest)

theorem lex_eq (h : Lexes quote tail cs ls) (hnil : tail []) : lex quote cs = ls := by
  have hall := h [] hnil
  rw [List.append_nil] at hall
  rw [hall]
  exact List.append_nil ls

end Lexes

theorem ends_nil : Ends quote [] := by simp [Ends]

theorem ends_cons {c : Char} (hword : isWordChar c = false) (hquote : c ≠ quote)
    (rest : List Char) : Ends quote (c :: rest) := by
  intro d hd
  rw [← Option.mem_some.mp hd]
  exact ⟨hword, hquote⟩

theorem scan_inside {w : List Char} (hw : ∀ c ∈ w, isWordChar c) (read : List Char) :
    scan quote (.word read) w = ([], .word (read ++ w)) := by
  induction w generalizing read with
  | nil => simp [scan]
  | cons c w ih =>
    have hc := hw c List.mem_cons_self
    have hrest := ih (fun d hd => hw d (List.mem_cons_of_mem c hd)) (read ++ [c])
    simp [scan, Mode.step, hc, hrest]

theorem scan_word {w : List Char} (hne : w ≠ []) (hw : ∀ c ∈ w, isWordChar c) :
    scan quote .between w = ([], .word w) := by
  obtain ⟨c, w, rfl⟩ := List.exists_cons_of_ne_nil hne
  have hc := hw c List.mem_cons_self
  have hrest : scan quote (.word [c]) w = ([], .word ([c] ++ w)) :=
    scan_inside (fun d hd => hw d (List.mem_cons_of_mem c hd)) [c]
  simp [scan, Mode.step, start, hc, hrest]

instance (quote : Char) : (cs : List Char) → Decidable (Ends quote cs)
  | [] => .isTrue ends_nil
  | c :: cs =>
    if h : isWordChar c = false ∧ c ≠ quote then .isTrue (ends_cons h.1 h.2 cs)
    else .isFalse fun hends => h (hends c rfl)

theorem Ends.append (h : Ends quote cs) (hne : cs ≠ []) (rest : List Char) :
    Ends quote (cs ++ rest) := by
  obtain ⟨c, cs, rfl⟩ := List.exists_cons_of_ne_nil hne
  exact ends_cons (h c rfl).1 (h c rfl).2 _

/-- A text in which quotes are written twice is read as it was. -/
theorem scan_doubled (read cs : List Char) :
    scan quote (.quoted read) (cs.flatMap fun c => if c = quote then [quote, quote] else [c]) =
      ([], .quoted (read ++ cs)) := by
  induction cs generalizing read with
  | nil => simp [scan]
  | cons c cs ih =>
    rw [List.flatMap_cons, scan_append]
    by_cases hc : c = quote
    · simp [hc, scan, Mode.step, ih]
    · simp [hc, scan, Mode.step, ih]

end Newsfeed.Reading
