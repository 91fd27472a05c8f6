import Newsfeed.FullText.MatchTree

namespace Newsfeed

/-- A kind of number that is given where a text is asked for. -/
inductive NumberKind where
  | whole
  | fractional
  deriving DecidableEq, Repr

def NumberKind.name : NumberKind → String
  | whole => "Integer"
  | fractional => "Real"

/-- Why the store refuses a write or cannot answer a read. -/
inductive Fault where
  /-- A row names one of another table that is not there. -/
  | noSuchRow
  /-- Two rows would agree on these columns. -/
  | repeated (columns : String)
  /-- The row to change is not there. -/
  | noRows
  /-- A function of texts was given a number. -/
  | notText (kind : NumberKind)
  | query (e : FullText.QueryError)
  /-- A full-text query was refused in words that hold a NUL and cannot be passed on. -/
  | garbled
  /-- A filter has too many parts inside each other. -/
  | tooDeep
  /-- A text to look for is too long. -/
  | tooLong
  /-- A question to the full-text index has too many parts inside each other. -/
  | indexOverflow
  deriving DecidableEq, Repr

def Fault.message : Fault → String
  | noSuchRow => "FOREIGN KEY constraint failed"
  | repeated columns => "UNIQUE constraint failed: " ++ columns
  | noRows => "Query returned no rows"
  | notText kind => "Invalid function parameter type " ++ kind.name ++ " at index 0"
  | query e => e.message
  | garbled => "constraint failed"
  | tooDeep => "Expression tree is too large (maximum depth 1000)"
  | tooLong => "LIKE or GLOB pattern too complex"
  | indexOverflow => "fts5: parser stack overflow"

/-- The fault of a full-text query that is refused. -/
def Fault.ofQuery (e : FullText.QueryError) : Fault :=
  if e.message.toList.contains '\x00' then garbled else query e

end Newsfeed
