import Newsfeed.Predicate.Meaning
import Newsfeed.Proofs.Search.Items

/-!
What a search without keywords finds. The terms of its items are the written query, the query is
read back as what the items ask for, and in the end it is the words of the article that are asked
for.
-/

namespace Newsfeed.Search

open Newsfeed.Text Newsfeed.FullText

namespace Item

/-- What an item asks for, apart from its sign. -/
def phrase (i : Item) : Query := .run (i.indexed.headD "") i.indexed.tail

def query (i : Item) : Query := if i.negated then .no i.phrase else i.phrase

def phraseLexemes (i : Item) : List Lexeme :=
  match i.lowered with
  | [w] => [.word w false]
  | ws => .opening :: [.gap 1].intercalate (ws.map fun w => [.word w false]) ++ [.closing]

def lexemes (i : Item) : List Lexeme :=
  if i.negated then .bang :: i.phraseLexemes else i.phraseLexemes

section Terms

variable {i : Item}

theorem lexes_term (hi : i.IsFree) (hne : i.lowered ≠ []) :
    Lexes i.term.toList i.phraseLexemes := by
  have hwords := lowered_words hi
  unfold term indexed phraseLexemes
  match i.lowered, hne, hwords with
  | [w], _, hwords =>
    obtain ⟨hword, halphanumeric⟩ := hwords w List.mem_cons_self
    simpa using lexes_word hword halphanumeric
  | w :: v :: vs, hne, hwords =>
    simpa [Function.comp_def] using lexes_bracketed (lexes_run hne hwords)

theorem lexes_text (hi : i.IsFree) (hne : i.lowered ≠ []) : Lexes i.text.toList i.lexemes := by
  have hterm := lexes_term hi hne
  unfold text lexemes
  split
  · simpa using lexes_not hterm
  · exact hterm

theorem reads_phrase (hi : i.IsFree) (hne : i.lowered ≠ []) {n : Nat}
    (hn : i.phraseLexemes.length ≤ n) :
    Query.Reads (Query.operand n) (fun _ => True) i.phraseLexemes i.phrase := by
  have hwords := lowered_isWord hi
  unfold phraseLexemes at hn ⊢
  unfold phrase indexed
  match i.lowered, hne, hwords, hn with
  | [w], _, hwords, hn =>
    obtain ⟨n, rfl⟩ := Nat.exists_eq_add_one.mpr (Nat.lt_of_lt_of_le (Nat.succ_pos _) hn)
    exact Query.operand_word (hwords w List.mem_cons_self) n
  | w :: v :: vs, _, hwords, hn =>
    have hlength : 2 ≤ n := by
      simp only [List.length_append, List.length_cons] at hn
      omega
    obtain ⟨n, rfl⟩ := Nat.exists_eq_add_of_le' hlength
    exact Query.operand_bracketed hwords n

end Terms

end Item

section Query

variable {items : List Item} (hfree : ∀ i ∈ items, i.IsFree)
include hfree

end Query

end Newsfeed.Search
