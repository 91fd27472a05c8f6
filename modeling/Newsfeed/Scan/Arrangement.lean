import Newsfeed.Scan.Disjunction

/-!
How far the rows that are found stand in the order that is asked for before they are sorted.
-/

namespace Newsfeed.Scan

/-- Something that rows are sorted by. What is counted is told apart by the number of the copy. -/
inductive Criterion where
  | key (k : SortKey)
  | article
  | copy
  deriving DecidableEq, Repr

namespace Criterion

def table : Criterion → Table
  | key k => match k.column with
    | .lastMarked => .copies
    | .lastPublished => .copies
    | .lastRead => .copies
    | .feedTitle => .feeds
    | _ => .articles
  | article => .articles
  | copy => .copies

def direction : Criterion → Direction
  | key k => k.direction
  | article => .desc
  | copy => .asc

/-- The column that filters ask about too. -/
def column? : Criterion → Option Column
  | key k => match k.column with
    | .score => some .score
    | .dateEntered => some .dateEntered
    | .updated => some .updated
    | .title => some .title
    | .lastMarked => some .lastMarked
    | .lastPublished => some .lastPublished
    | .lastRead => some .lastRead
    | _ => none
  | article => some .entryId
  | copy => none

/-- The key of an index of its table that stands for it. -/
def key? : Criterion → Option Key
  | key k => if k.column = .dateEntered then some .date else none
  | article => some .article
  | copy => some .copy

end Criterion

/-- The rows of an order are sorted by the number of the article in the end. -/
def Purpose.criteria : Purpose → List Criterion
  | page order _ _ _ => order.keys.map .key ++ [.article]
  | first order => order.keys.map .key ++ [.article]
  | count => [.copy]
  | trial => []

namespace Lookup

/-- Of the table there is no more than one row to find. -/
def isSingle (l : Lookup) : Bool :=
  match l.table with
  | .articles => l.handles.any fun h => h.key = .article && h.hold = .equals
  | .copies => l.index = .ownerArticle && l.handles.head?.any fun h => h.hold = .equals
  | .feeds => l.handles.any fun h => h.hold = .equals

/-- The keys of the index that are not the same for all rows. -/
def looseKeys (l : Lookup) : List Key :=
  (l.index.keys.map Prod.fst).filter fun key => !l.handles.any fun h =>
    h.key = key && (h.hold = .equals || h.hold = .unset)

end Lookup

/-- The condition leaves the column one value, or none. -/
def Condition.settles (column : Column) (c : Condition) : Bool :=
  (c.equated? column).isSome || c = .test (.cell column none .isNull)

/-- All rows that the lookup finds are equal in the criterion, there being no more than one row of
each of some tables. -/
def Criterion.isSettled (g : Goal) (singles : List Table) (l : Lookup) (c : Criterion) : Bool :=
  singles.contains c.table ||
    (c.table = l.table && c.column?.any fun column => g.terms.any fun t => t.settles column)

/-- How many criteria in turn are settled or among so many others. -/
def leading (isSettled : Criterion → Bool) : Nat → List Criterion → Nat
  | _, [] => 0
  | n, c :: cs =>
    if isSettled c then leading isSettled n cs + 1
    else match n with
      | 0 => 0
      | n + 1 => leading isSettled n cs + 1

/-- How many criteria in turn the rows that the lookup finds are in order by, or in the opposite
order by all that are not settled. -/
def Goal.arranged (g : Goal) (singles : List Table) (l : Lookup) : Nat :=
  let isSettled := Criterion.isSettled g singles l
  let others := g.purpose.criteria.filter fun c => !isSettled c
  let matched := (l.looseKeys.zip others).takeWhile fun (key, c) =>
    c.table = l.table && c.key? = some key && others.head?.all fun d => d.direction = c.direction
  if l.index.isOfParts then 0 else leading isSettled matched.length g.purpose.criteria

end Newsfeed.Scan
