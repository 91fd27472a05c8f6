import Mathlib.Data.List.Forall2
import Mathlib.Data.List.TakeWhile
import Newsfeed.Proofs.FullText.Reading
import Newsfeed.Search.Compile

/-!
Searches that are typed without keywords: words and quoted words, some negated, with blanks between
them. Each becomes one token, and each token one term of the full-text query.
-/

namespace Newsfeed.Search

open Newsfeed.Text Newsfeed.FullText

/-- A word that is looked for as it is typed, apart from its case. -/
structure IsPlain (w : List Char) : Prop where
  ne_nil : w ≠ []
  alphanumeric : ∀ c ∈ w, isAlphanumeric c
  lowered : ∀ c ∈ lowerChars w, isAlphanumeric c
  settled : lowerChars (lowerChars w) = lowerChars w

theorem IsPlain.isWord {w : List Char} (h : IsPlain w) : IsWord (lowerChars w) :=
  ⟨lowerChars_ne_nil h.ne_nil, h.lowered, h.settled⟩

/-- The words that have a meaning of their own in a search. -/
def keywords : List String := ["title", "author", "note", "star", "pub", "label", "unread"]

/-- Words in a row, to be found or not to be found. -/
structure Item where
  negated : Bool
  words : List (List Char)

namespace Item

def sign (i : Item) : List Char := if i.negated then ['-'] else []

/-- How an item is typed: one word as it is, or words in double quotes. -/
inductive Typed (i : Item) : List Char → Prop
  | bare {w : List Char} (hword : i.words = [w]) : Typed i (i.sign ++ w)
  | quoted {body : List Char} (hbody : Spaced i.words body) :
      Typed i (i.sign ++ '"' :: body ++ ['"'])

/-- The words are plain, and one alone is no keyword. -/
structure IsFree (i : Item) : Prop where
  plain : ∀ w ∈ i.words, IsPlain w
  noKeyword : ∀ w, i.words = [w] → String.ofList (lowerChars w) ∉ keywords

/-- The words as the index has them. -/
def lowered (i : Item) : List (List Char) := i.words.map lowerChars

def indexed (i : Item) : List String := i.lowered.map String.ofList

/-- What is highlighted of an item. -/
def term (i : Item) : String :=
  match i.indexed with
  | [w] => w
  | ws => "(" ++ String.intercalate " <-> " ws ++ ")"

end Item

section Tokens

theorem runsFrom_word {quoted : Bool} {w : List Char}
    (hw : ∀ c ∈ w, c ≠ '"' ∧ (isBlank c → quoted)) (read rest : List Char) :
    runsFrom quoted read (w ++ rest) = runsFrom quoted (read ++ w) rest := by
  induction w generalizing read with
  | nil => simp
  | cons c w ih =>
    obtain ⟨hquote, hc⟩ := hw c List.mem_cons_self
    have hinside : (isBlank c && !quoted) = false := by
      cases hblank : isBlank c with
      | false => rfl
      | true => rw [hc hblank]; rfl
    rw [List.cons_append, runsFrom, if_neg hquote, hinside, if_neg Bool.false_ne_true,
      ih (fun d hd => hw d (List.mem_cons_of_mem c hd)), List.append_assoc]
    rfl

theorem ne_quote_of_blank {c : Char} (h : isBlank c) : c ≠ '"' := by
  rintro rfl
  revert h
  decide

theorem runsFrom_blank {c : Char} (h : isBlank c) (read rest : List Char) :
    runsFrom false read (c :: rest) =
      (if read = [] then [] else [read]) ++ runsFrom false [] rest := by
  rw [runsFrom, if_neg (ne_quote_of_blank h), h]
  rfl

theorem runsFrom_skip {gap : List Char} (hgap : ∀ c ∈ gap, isBlank c) (rest : List Char) :
    runsFrom false [] (gap ++ rest) = runsFrom false [] rest := by
  induction gap with
  | nil => rfl
  | cons c gap ih =>
    rw [List.cons_append, runsFrom_blank (hgap c List.mem_cons_self)]
    exact ih fun d hd => hgap d (List.mem_cons_of_mem c hd)

theorem runsFrom_gap {gap : List Char} (hne : gap ≠ []) (hgap : ∀ c ∈ gap, isBlank c)
    {read : List Char} (hread : read ≠ []) (rest : List Char) :
    runsFrom false read (gap ++ rest) = read :: runsFrom false [] rest := by
  obtain ⟨c, gap, rfl⟩ := List.exists_cons_of_ne_nil hne
  rw [List.cons_append, runsFrom_blank (hgap c List.mem_cons_self), if_neg hread,
    runsFrom_skip fun d hd => hgap d (List.mem_cons_of_mem c hd)]
  rfl

/-- The piece of a search is read as these characters of a run, without its quotes. -/
def Yields (x run : List Char) : Prop :=
  ∀ read rest, runsFrom false read (x ++ rest) = runsFrom false (read ++ run) rest

theorem Yields.append {x y r s : List Char} (hx : Yields x r) (hy : Yields y s) :
    Yields (x ++ y) (r ++ s) := by
  intro read rest
  rw [List.append_assoc, hx, hy, List.append_assoc]

theorem yields_self {w : List Char} (hw : ∀ c ∈ w, c ≠ '"' ∧ isBlank c = false) : Yields w w := by
  refine runsFrom_word fun c hc => ⟨(hw c hc).1, fun hblank => ?_⟩
  rw [(hw c hc).2] at hblank
  cases hblank

theorem yields_word {w : List Char} (hw : ∀ c ∈ w, isAlphanumeric c) : Yields w w :=
  yields_self fun c hc =>
    ⟨ne_of_alphanumeric (hw c hc) (by decide), isBlank_of_alphanumeric (hw c hc)⟩

theorem yields_quoted {body : List Char} (hbody : ∀ c ∈ body, c ≠ '"') :
    Yields ('"' :: body ++ ['"']) body := by
  intro read rest
  have hinside (read rest : List Char) :
      runsFrom true read (body ++ rest) = runsFrom true (read ++ body) rest :=
    runsFrom_word (fun c hc => ⟨hbody c hc, fun _ => rfl⟩) read rest
  rw [List.append_assoc, List.cons_append, runsFrom, if_pos rfl, Bool.not_false, hinside,
    List.singleton_append, runsFrom, if_pos rfl, Bool.not_true]

/-- Pieces with blanks between them are runs of their own. -/
theorem runsFrom_spaced {xs runs : List (List Char)} (h : List.Forall₂ Yields xs runs)
    (hruns : ∀ r ∈ runs, r ≠ []) {cs : List Char} (hcs : Spaced xs cs) :
    runsFrom false [] cs = runs := by
  induction hcs generalizing runs with
  | last x =>
    cases h with
    | @cons _ r _ _ hx hnone =>
      cases hnone
      have hall := hx [] []
      rw [List.append_nil, List.nil_append] at hall
      rw [hall, runsFrom, if_neg (hruns r List.mem_cons_self)]
  | more hgap hblank rest ih =>
    cases h with
    | @cons _ r _ runs hx hxs =>
      have hr := hruns r List.mem_cons_self
      rw [List.append_assoc, hx, List.nil_append, runsFrom_gap hgap hblank hr,
        ih hxs fun s hs => hruns s (List.mem_cons_of_mem r hs)]

variable {ws : List (List Char)} {cs : List Char}

end Tokens

theorem Keyword.text_mem {cs : List Char} {k : Keyword} (h : Keyword.ofText? cs = some k) :
    String.ofList cs ∈ keywords := by
  unfold Keyword.ofText? at h
  split at h
  case h_8 => cases h
  all_goals rename_i htext; simp [keywords, htext]

theorem Keyword.not_blank {cs : List Char} {k : Keyword} (h : Keyword.ofText? cs = some k)
    {c : Char} (hc : c ∈ cs) : isBlank c = false := by
  have hwords : ∀ s ∈ keywords, s.toList.all fun c => isBlank c = false := by decide
  have hcs := List.all_iff_forall_prop.mp (hwords _ (Keyword.text_mem h))
  rw [String.toList_ofList] at hcs
  exact hcs c hc

namespace Item

variable {i : Item} {x body : List Char}

section Body

variable (hi : i.IsFree) (hbody : Spaced i.words body)
include hi

theorem IsFree.ne_nil : ∀ w ∈ i.words, w ≠ [] := fun w hw => (hi.plain w hw).ne_nil

theorem IsFree.alphanumeric : ∀ w ∈ i.words, ∀ c ∈ w, isAlphanumeric c :=
  fun w hw => (hi.plain w hw).alphanumeric

theorem lowered_isWord : ∀ w ∈ i.lowered, IsWord w := by
  intro w hw
  obtain ⟨v, hv, rfl⟩ := List.mem_map.mp hw
  exact (hi.plain v hv).isWord

theorem lowered_words : ∀ w ∈ i.lowered, w ≠ [] ∧ ∀ c ∈ w, isAlphanumeric c :=
  fun w hw => ⟨(lowered_isWord hi w hw).ne_nil, (lowered_isWord hi w hw).alphanumeric⟩

include hbody

theorem run_ne_nil : i.sign ++ body ≠ [] :=
  List.append_ne_nil_of_right_ne_nil _ (hbody.text_ne_nil hi.ne_nil)

end Body

/-- The term of the query for an item. -/
def text (i : Item) : String := if i.negated then "!" ++ i.term else i.term

end Item

section Items

variable {items : List Item} {texts : List (List Char)}

end Items

end Newsfeed.Search
