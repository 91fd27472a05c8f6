import Newsfeed.Text.Blank

/-!
A search is a list of tokens with blanks between them. Double quotes hold blanks together and are
dropped; one that is not closed reaches to the end. A hyphen in front negates a token.
-/

namespace Newsfeed.Search

open Newsfeed.Text

structure Token where
  negated : Bool
  text : List Char
  deriving DecidableEq, Repr

/-- The runs of a search from inside or outside quotes on, where `run` holds what has been read of
the current one. -/
def runsFrom (quoted : Bool) (run : List Char) : List Char → List (List Char)
  | [] => if run = [] then [] else [run]
  | c :: cs =>
    if c = '"' then runsFrom (!quoted) run cs
    else if isBlank c && !quoted then (if run = [] then [] else [run]) ++ runsFrom quoted [] cs
    else runsFrom quoted (run ++ [c]) cs

/-- A run is a token unless nothing but blanks is left of it. -/
def Token.ofRun? (run : List Char) : Option Token :=
  let t : Token := match run with
    | '-' :: rest => ⟨true, trimChars rest⟩
    | _ => ⟨false, trimChars run⟩
  if t.text = [] then none else some t

def tokenize (cs : List Char) : List Token := (runsFrom false [] cs).filterMap Token.ofRun?

end Newsfeed.Search
