import Newsfeed.Text.Blank

namespace Newsfeed

inductive SortColumn where
  | score | dateEntered | updated | title | lastMarked | lastPublished | lastRead | feedTitle
  /-- Year and number of the week in which the article was entered. -/
  | yearWeek
  deriving DecidableEq, Repr

inductive Direction where
  | asc | desc
  deriving DecidableEq, Repr

structure SortKey where
  column : SortColumn
  direction : Direction
  deriving DecidableEq, Repr

/-- The order of a listing: by the keys in turn, then by article id, the greatest first. -/
structure SortOrder where
  keys : List SortKey
  /-- The pagination guard leaves listings in this order alone. -/
  skipsGuard : Bool
  /-- Rows are not gathered by feed. -/
  ungrouped : Bool
  deriving DecidableEq, Repr

namespace SortOrder

def ofKeys (keys : List SortKey) : SortOrder := ⟨keys, false, false⟩

def rising (columns : List SortColumn) : SortOrder := ofKeys (columns.map fun c => ⟨c, .asc⟩)

def falling (columns : List SortColumn) : SortOrder := ofKeys (columns.map fun c => ⟨c, .desc⟩)

def standard : SortOrder := falling [.score, .dateEntered, .updated]

/-- Newest first by when something was done to the article, then by its own times. -/
def lastFirst (column : SortColumn) : SortOrder := falling [column, .dateEntered, .updated]

/-- The orders that can be asked for by name. The one from old to new shifts with every arrival, so
the guard leaves it alone. -/
def ofName? (name : String) : Option SortOrder :=
  match Text.trim name with
  | "title" => some (rising [.title, .dateEntered, .updated])
  | "date_reverse" => some { rising [.updated] with skipsGuard := true }
  | "feed_dates" => some (falling [.updated])
  | _ => none

/-- Rows are gathered by feed or by week. -/
def isGrouped (o : SortOrder) : Bool :=
  match o.keys with
  | [] => false
  | k :: _ => k.column = .yearWeek || k.column = .feedTitle

end SortOrder

end Newsfeed
