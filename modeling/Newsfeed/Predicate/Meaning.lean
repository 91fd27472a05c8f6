import Newsfeed.FullText.MatchTree
import Newsfeed.Predicate.Cell

/-!
What a filter says about a row, in three-valued logic. It is unknown where null is asked about, and
where a question cannot be answered at all.
-/

namespace Newsfeed

/-- What is known about a row of a listing. -/
structure Facts where
  cell : Column → Cell
  hasLabel : Int → Bool
  hasLabelOf : Int → Bool
  hasTag : Int → String → Bool
  /-- The indexed words of the article. -/
  words : List String

/-- Whether a document passes a full-text query; unknown of a query that is refused. -/
def FullText.passes (language query : String) (doc : List String) : Truth :=
  match FullText.compile language query with
  | .ok tree => some (tree.holds doc)
  | .error _ => none

namespace Predicate

mutual

def truth (row : Facts) : Predicate → Truth
  | always => some true
  | never => some false
  | conj parts => truthOfAll row parts
  | disj parts => truthOfAny row parts
  | no inner => (truth row inner).not
  | compare column op value => op.truth (row.cell column) value.cell
  | isNull column => some (row.cell column = .null)
  | notNull column => some (row.cell column ≠ .null)
  | contains column needle => (row.cell column).holdsText needle
  | inList column values => (row.cell column).isOneOf values
  | startsWith column start => (row.cell column).startsWith start
  | label id => some (row.hasLabel id)
  | labelOf owner => some (row.hasLabelOf owner)
  | tag owner name => some (row.hasTag owner name)
  | fullText language query => FullText.passes language query row.words

def truthOfAll (row : Facts) : List Predicate → Truth
  | [] => some true
  | p :: ps => (truth row p).and (truthOfAll row ps)

def truthOfAny (row : Facts) : List Predicate → Truth
  | [] => some false
  | p :: ps => (truth row p).or (truthOfAny row ps)

end

/-- The row passes the filter: it is known to be true. -/
def admits (p : Predicate) (row : Facts) : Bool := (p.truth row).holds

end Predicate

end Newsfeed
