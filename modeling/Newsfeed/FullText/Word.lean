import Newsfeed.Text.Alphanumeric
import Newsfeed.Text.Lowercase

/-!
The words of a text: its maximal runs of letters and numbers, lowercased one by one. Markup, from
`<` up to the next `>` or to the end, holds no words and ends the word before it.
-/

namespace Newsfeed.FullText

open Newsfeed.Text

/-- The runs of a text from inside or outside markup on, where `run` holds what has been read of
the current one. -/
def runsFrom (inTag : Bool) (run : List Char) : List Char → List (List Char)
  | [] => if run = [] then [] else [run]
  | c :: cs =>
    let inTag := if c = '<' then true else if c = '>' then false else inTag
    if inTag || !isAlphanumeric c then
      (if run = [] then [] else [run]) ++ runsFrom inTag [] cs
    else runsFrom inTag (run ++ [c]) cs

def words (s : String) : List String :=
  (runsFrom false [] s.toList).map fun run => String.ofList (lowerChars run)

/-- The words under which an article is found: those of its title, then those of its content. -/
def articleWords (title content : String) : List String := words title ++ words content

def indexText (title content : String) : String :=
  String.intercalate " " (articleWords title content)

end Newsfeed.FullText
