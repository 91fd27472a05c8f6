import Newsfeed.Predicate.Cell
import Newsfeed.Sql.Like
import Newsfeed.Store.Fault

/-!
A filter as the store goes over it: tests of a row, joined two by two. What is written as false
takes a whole conjunction with it, unless a function is called there. What a column is required to
equal is put in its place wherever else the filter asks about it.
-/

namespace Newsfeed.Scan

open Newsfeed.Text Newsfeed.FullText

/-- The tables whose rows make up a row of a listing. -/
inductive Table where
  | articles | copies | feeds
  deriving DecidableEq, Repr

def tableOf : Column → Table
  | .unread | .marked | .published | .note | .feedId => .copies
  | .lastRead | .lastMarked | .lastPublished => .copies
  | .categoryId => .feeds
  | _ => .articles

/-- A question about what a column holds. -/
inductive Question where
  | compare (op : Comparison) (value : Cell)
  | isNull
  | notNull
  | contains (needle : String)
  | isOneOf (values : List Int)
  | startsWith (start : String)
  deriving DecidableEq, Repr

/-- A question about a row's place in another table. -/
inductive Membership where
  | label (id : Int)
  | labelOf (owner : Int)
  | tag (owner : Int) (name : String)
  | indexed (e : IndexExpr)
  deriving DecidableEq, Repr

inductive Test where
  /-- Asks about a column, or about the value that takes its place. -/
  | cell (column : Column) (value : Option Cell) (question : Question)
  /-- Asks about a row, or about the one whose number takes its place. -/
  | member (m : Membership) (row : Option Cell)
  /-- A full-text query that is refused. -/
  | refused (e : QueryError)
  deriving DecidableEq, Repr

inductive Condition where
  /-- Written as true or false. -/
  | literal (b : Bool)
  /-- Whether the column is filled, which is the same for all rows. -/
  | settled (column : Column) (b : Bool)
  | both (a b : Condition)
  | either (a b : Condition)
  | no (a : Condition)
  | test (t : Test)
  deriving DecidableEq, Repr

namespace Membership

def table : Membership → Table
  | tag _ _ => .copies
  | _ => .articles

end Membership

/-- The longest text that is looked for, in bytes. -/
def longestPattern : Nat := 50000

def isTooLong (needle : String) : Bool := longestPattern < (Sql.likePattern needle).utf8ByteSize

namespace Test

def callsFunction : Test → Bool
  | cell _ _ (.contains _) => true
  | cell _ _ (.startsWith _) => true
  | refused _ => true
  | _ => false

def asksTable : Test → Bool
  | member _ _ => true
  | _ => false

/-- The tables that have to be read before the test. -/
def tables : Test → List Table
  | cell c none _ => [tableOf c]
  | member m none => [m.table]
  | _ => []

/-- The test may be a fault. A text is not looked for in a column of numbers, nor anywhere if it is
too long; and the index is not asked everything. -/
def mayFail : Test → Bool
  | cell c _ (.contains needle) => c.isNumber || isTooLong needle
  | member (.indexed e) _ => e.overflows
  | refused _ => true
  | _ => false

/-- How deep the parts of the test are inside each other. -/
def height : Test → Nat
  | cell _ _ (.contains _) => 4
  | cell _ _ (.startsWith _) => 4
  | member (.labelOf _) _ => 4
  | member (.tag _ _) _ => 4
  | _ => 3

/-- How deep the parts of what it asks another table are. -/
def innerHeight : Test → Nat
  | member (.label _) _ => 2
  | member (.labelOf _) _ => 4
  | member (.tag _ _) _ => 3
  | member (.indexed _) _ => 2
  | _ => 0

end Test

namespace Condition

def tests : Condition → List Test
  | literal _ => []
  | settled _ _ => []
  | both a b => a.tests ++ b.tests
  | either a b => a.tests ++ b.tests
  | no a => a.tests
  | test t => [t]

def callsFunction (c : Condition) : Bool := c.tests.any Test.callsFunction

def asksTable (c : Condition) : Bool := c.tests.any Test.asksTable

def mayFail (c : Condition) : Bool := c.tests.any Test.mayFail

def tables (c : Condition) : List Table := c.tests.flatMap Test.tables

/-- The columns of the articles that are asked about. -/
def articleColumns : Condition → List Column
  | literal _ => []
  | settled c _ => if tableOf c = .articles then [c] else []
  | both a b => a.articleColumns ++ b.articleColumns
  | either a b => a.articleColumns ++ b.articleColumns
  | no a => a.articleColumns
  | test (.cell c _ _) => if tableOf c = .articles then [c] else []
  | test _ => []

/-- A conjunction. -/
def and (a b : Condition) : Condition :=
  if (a = literal false ∨ b = literal false) ∧ !(a.callsFunction || b.callsFunction) then
    literal false
  else both a b

def all : List Condition → Condition
  | [] => literal true
  | c :: cs => cs.foldl and c

def any : List Condition → Condition
  | [] => literal false
  | c :: cs => cs.foldl either c

mutual

def ofMatch : MatchTree → Condition
  | .expr e => test (.member (.indexed e) none)
  | .all parts => all (ofMatches parts)
  | .any parts => any (ofMatches parts)
  | .no part => no (ofMatch part)

def ofMatches : List MatchTree → List Condition
  | [] => []
  | t :: ts => ofMatch t :: ofMatches ts

end

def ofFullText (language query : String) : Condition :=
  match FullText.compile language query with
  | .ok tree => ofMatch tree
  | .error e => test (.refused e)

def ofColumn (c : Column) (q : Question) : Condition := test (.cell c none q)

/-- Whether a column is filled, where that depends on the row. -/
def ofFilled (c : Column) (filled : Bool) : Condition :=
  if c.isFilled then settled c filled
  else ofColumn c (if filled then .notNull else .isNull)

/-- To be one of a single number is to equal it. -/
def ofList (c : Column) : List Int → Condition
  | [] => literal false
  | [n] => ofColumn c (.compare .eq (.int n))
  | values => ofColumn c (.isOneOf values)

mutual

def ofPredicate : Predicate → Condition
  | .always => literal true
  | .never => literal false
  | .conj parts => all (ofPredicates parts)
  | .disj parts => any (ofPredicates parts)
  | .no inner => no (ofPredicate inner)
  | .compare c op value => ofColumn c (.compare op value.cell)
  | .isNull c => ofFilled c false
  | .notNull c => ofFilled c true
  | .contains c needle => ofColumn c (.contains needle)
  | .inList c values => ofList c values
  | .startsWith c start => ofColumn c (.startsWith start)
  | .label id => test (.member (.label id) none)
  | .labelOf owner => test (.member (.labelOf owner) none)
  | .tag owner name => test (.member (.tag owner name) none)
  | .fullText language query => ofFullText language query

def ofPredicates : List Predicate → List Condition
  | [] => []
  | p :: ps => ofPredicate p :: ofPredicates ps

end

/-! ### Depth -/

def height : Condition → Nat
  | literal _ => 1
  | settled _ _ => 3
  | both a b => max a.height b.height + 1
  | either a b => max a.height b.height + 1
  | no a => a.height + 1
  | test t => t.height

def innerHeight (c : Condition) : Nat := (c.tests.map Test.innerHeight).foldl max 0

/-- A filter is joined with the owner and with what ties the tables together, and the whole may be
a thousand parts deep. -/
def isTooDeep (c : Condition) : Bool := 1000 < max 3 c.height + 3 + c.innerHeight

/-! ### Requirements -/

/-- The conditions that a row has to pass one and all. -/
def requirements : Condition → List Condition
  | both a b => a.requirements ++ b.requirements
  | c => [c]

def alternatives : Condition → List Condition
  | either a b => a.alternatives ++ b.alternatives
  | c => [c]

/-- The condition is not true of a row without a feed. -/
def needsCategory : Condition → Bool
  | both a b => a.needsCategory && b.needsCategory
  | either a b => a.needsCategory && b.needsCategory
  | no a => a.needsCategory
  | test (.cell .categoryId _ (.compare op _)) => op != .isNot
  | test (.cell .categoryId _ (.isOneOf _)) => true
  | _ => false

mutual

/-- Rows without a feed do not pass a conjunction. That its last part says so by asking for a filled
category is not noticed. -/
def dropsArchived : Condition → Bool
  | both a b => a.dropsArchivedFirst || b.dropsArchived
  | c => c.needsCategory

def dropsArchivedFirst : Condition → Bool
  | both a b => a.dropsArchivedFirst || b.dropsArchived
  | test (.cell .categoryId _ .notNull) => true
  | c => c.needsCategory

end

def mapTests (f : Test → Test) : Condition → Condition
  | literal b => literal b
  | settled c b => settled c b
  | both a b => both (a.mapTests f) (b.mapTests f)
  | either a b => either (a.mapTests f) (b.mapTests f)
  | no a => no (a.mapTests f)
  | test t => test (f t)

/-- The condition asked about columns themselves. -/
def ofColumns (c : Condition) : Condition := c.mapTests fun t =>
  match t with
  | .cell column _ q => .cell column none q
  | .member m _ => .member m none
  | .refused e => .refused e

/-- The value that the condition requires a column to equal. -/
def equated? (column : Column) : Condition → Option Cell
  | test (.cell c none (.compare .eq v)) => if c = column then some v else none
  | _ => none

end Condition

/-- A value as a column would hold it. -/
def adapted (c : Column) : Cell → Cell
  | .text s =>
    if c.isNumber then
      match (readInt64? (trimNumeral s)).or
          ((Numeral.ofChars? (trimNumeral s)).bind fun x => x.shortened.whole?) with
      | some n => .int n
      | none => .text s
    else .text s
  | .int n => if c.isNumber then .int n else .text (toString n)
  | .null => .null

/-- The last of the requirements on what a column equals, and its place. -/
def required? (column : Column) (cs : List Condition) : Option (Nat × Cell) :=
  cs.zipIdx.reverse.findSome? fun (c, i) => (c.equated? column).map fun v => (i, v)

/-- Puts required values in the place of columns, save where they are required. -/
def withValues (cs : List Condition) : List Condition :=
  let known (c : Column) (i : Nat) : Option Cell :=
    match required? c cs with
    | some (j, v) => if i = j then none else some (adapted c v)
    | none => none
  cs.zipIdx.map fun (c, i) => c.mapTests fun t =>
    match t with
    | .cell column _ q => .cell column (known column i) q
    | .member m _ => .member m (if m.table = .articles then known .entryId i else none)
    | .refused e => .refused e

end Newsfeed.Scan
