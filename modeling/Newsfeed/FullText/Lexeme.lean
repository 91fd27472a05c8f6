import Newsfeed.Text.Decimal

namespace Newsfeed.FullText

open Newsfeed.Text

/-- The smallest parts of a full-text query. -/
inductive Lexeme where
  | amp | bar | bang | opening | closing
  /-- `<->` or `<n>`: the distance between two words. -/
  | gap (distance : Nat)
  /-- A word; starred, it stands for every word that starts with it. -/
  | word (text : List Char) (starred : Bool)
  deriving DecidableEq, Repr

/-- What the reader of lexemes is in the middle of. -/
inductive Mode where
  | between
  | word (text : List Char)
  /-- After the colon of a word, with whether a star and whether any flag has been read. -/
  | flags (text : List Char) (starred seen : Bool)
  | gap (inside : List Char)
  deriving DecidableEq, Repr

/-- A colon after a word takes stars and the weights `a` to `d`; weights mean nothing. -/
def isFlag (c : Char) : Bool := "*abcdABCD".toList.contains c

def operator? : Char → Option Lexeme
  | '&' => some .amp
  | '|' => some .bar
  | '!' => some .bang
  | '(' => some .opening
  | ')' => some .closing
  | _ => none

def gapDistance? (inside : List Char) : Option Nat :=
  if inside = ['-'] then some 1 else readUInt64? inside

/-- One character read between lexemes: the lexeme that it is, if it is one, and what the reader
is in the middle of after it. A colon may only follow a word. -/
def startLexeme (c : Char) : Option (List Lexeme × Mode) :=
  if isBlank c then some ([], .between)
  else match operator? c with
    | some l => some ([l], .between)
    | none =>
      if c = '<' then some ([], .gap [])
      else if c = ':' then none
      else some ([], .word [c])

/-- One character: the lexemes that it completes and what the reader is in the middle of after
it. -/
def Mode.step (c : Char) : Mode → Option (List Lexeme × Mode)
  | .between => startLexeme c
  | .word text =>
    if c = ':' then some ([], .flags text false false)
    else if isBlank c || (operator? c).isSome || c = '<' then
      (startLexeme c).map fun (ls, m) => (.word text false :: ls, m)
    else some ([], .word (text ++ [c]))
  | .flags text starred seen =>
    if isFlag c then some ([], .flags text (starred || c = '*') true)
    else if seen then (startLexeme c).map fun (ls, m) => (.word text starred :: ls, m)
    else none
  | .gap inside =>
    if c = '>' then (gapDistance? inside).map fun d => ([.gap d], .between)
    else some ([], .gap (inside ++ [c]))

/-- What the end of the text completes. -/
def Mode.finish : Mode → Option (List Lexeme)
  | .between => some []
  | .word text => some [.word text false]
  | .flags text starred seen => if seen then some [.word text starred] else none
  | .gap _ => none

def lexFrom (m : Mode) : List Char → Option (List Lexeme)
  | [] => m.finish
  | c :: cs => (m.step c).bind fun (ls, m) => (lexFrom m cs).map (ls ++ ·)

/-- The lexemes of a query, if it has no stray colon and every gap is closed and has a distance. -/
def lex (cs : List Char) : Option (List Lexeme) := lexFrom .between cs

end Newsfeed.FullText
