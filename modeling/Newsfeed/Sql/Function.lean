import Newsfeed.Predicate.Cell
import Newsfeed.Store.Fault

/-!
The functions that statements call, on what columns hold. Null is passed through, save that a
full-text query or its language may be null for the empty text; a number is a fault.
-/

namespace Newsfeed.Sql

def textOf? : Cell → Except Fault (Option String)
  | .null => .ok none
  | .int _ => .error (.notText .whole)
  | .text s => .ok (some s)

/-- 1 for a full-text query that the index can be asked, and a fault for any other. -/
def tsCheck (language query : Cell) : Except Fault Cell := do
  let language ← textOf? language
  let query ← textOf? query
  match FullText.compile (language.getD "") (query.getD "") with
  | .ok _ => return .int 1
  | .error e => throw (.ofQuery e)

def ofText? : Option String → Cell
  | some s => .text s
  | none => .null

def unicodeLower (c : Cell) : Except Fault Cell :=
  (textOf? c).map fun s => ofText? (s.map Text.lowercase)

/-- The year and number of the week of a stored time; null for other texts. -/
def isoYearWeek (c : Cell) : Except Fault Cell :=
  (textOf? c).map fun s => ofText? (s.bind Time.weekText?)

end Newsfeed.Sql
