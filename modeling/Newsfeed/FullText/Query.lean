import Newsfeed.FullText.Lexeme
import Newsfeed.FullText.Word

/-!
Full-text queries and their grammar, from the loosest operator to the tightest:

  disjunction := conjunction ('|' conjunction)*
  conjunction := sequence ('&' sequence)*
  sequence := operand (gap operand)*
  operand := '!' operand | '(' disjunction ')' | word

Operators of one level group to the left.
-/

namespace Newsfeed.FullText

inductive Query where
  | term (word : String) (starred : Bool)
  | both (a b : Query)
  | either (a b : Query)
  | no (a : Query)
  /-- The right part starts `distance` words after the left one. -/
  | follow (left right : Query) (distance : Nat)
  deriving DecidableEq, Repr

namespace Query

/-- Stars the last word. -/
def star : Query → Query
  | term w _ => term w true
  | follow l r d => follow l r.star d
  | q => q

/-- A word with punctuation inside is the run of its parts, one after the other; the star goes to
the last. A word without letters and numbers is none. -/
def ofWord? (text : List Char) (starred : Bool) : Option Query :=
  match words (String.ofList text) with
  | [] => none
  | w :: ws =>
    let run := ws.foldl (fun q w => follow q (term w false) 1) (term w false)
    some (if starred then run.star else run)

/-- Reads a query from the front of the lexemes. -/
abbrev Reader := List Lexeme → Option (Query × List Lexeme)

/-- Goes on from a first operand for as long as an operator of one level follows, at most `n`
times. -/
def chainFrom (operand : Reader) (join? : Lexeme → Option (Query → Query → Query)) :
    Nat → Query → Reader
  | 0, left, ls => some (left, ls)
  | _ + 1, left, [] => some (left, [])
  | n + 1, left, l :: ls =>
    match join? l with
    | none => some (left, l :: ls)
    | some join =>
      (operand ls).bind fun (right, rest) => chainFrom operand join? n (join left right) rest

/-- Operands with operators of one level between them. Each operator is a lexeme of its own, so
there are at most as many as lexemes. -/
def chain (operand : Reader) (join? : Lexeme → Option (Query → Query → Query)) : Reader :=
  fun ls => (operand ls).bind fun (left, rest) => chainFrom operand join? rest.length left rest

def joinGap? : Lexeme → Option (Query → Query → Query)
  | .gap d => some fun l r => follow l r d
  | _ => none

def joinAmp? : Lexeme → Option (Query → Query → Query)
  | .amp => some both
  | _ => none

def joinBar? : Lexeme → Option (Query → Query → Query)
  | .bar => some either
  | _ => none

def sequence (operand : Reader) : Reader := chain operand joinGap?

def conjunction (operand : Reader) : Reader := chain (sequence operand) joinAmp?

def disjunction (operand : Reader) : Reader := chain (conjunction operand) joinBar?

/-- An operand with at most `n` negations and brackets around its words. -/
def operand : Nat → Reader
  | 0, _ => none
  | n + 1, ls => match ls with
    | .bang :: rest => (operand n rest).map fun (q, rest) => (no q, rest)
    | .opening :: rest => match disjunction (operand n) rest with
      | some (q, .closing :: rest) => some (q, rest)
      | _ => none
    | .word text starred :: rest => (ofWord? text starred).map fun q => (q, rest)
    | _ => none

/-- A query is a disjunction with nothing after it. Each negation and bracket is a lexeme, so they
are nested no deeper than there are lexemes. -/
def ofLexemes? (ls : List Lexeme) : Option Query :=
  match disjunction (operand ls.length) ls with
  | some (q, []) => some q
  | _ => none

def read? (s : String) : Option Query := (lex s.toList).bind ofLexemes?

end Query

end Newsfeed.FullText
