import Newsfeed.Listing.Query
import Newsfeed.Sql.Filter

/-!
The statements that read a listing: a page of its rows, its first row among recent arrivals, the
number of its rows, and a trial of its filter. Each is held to the owner before its filter.
-/

namespace Newsfeed

open Newsfeed.Time

namespace Sql

def sortColumnName : SortColumn → String
  | .score => "e.score"
  | .dateEntered => "e.date_entered"
  | .updated => "e.updated"
  | .title => "e.title"
  | .lastMarked => "ue.last_marked"
  | .lastPublished => "ue.last_published"
  | .lastRead => "ue.last_read"
  | .feedTitle => "f.title"
  | .yearWeek => "iso_year_week(e.date_entered)"

def directionName : Direction → String
  | .asc => "ASC"
  | .desc => "DESC"

/-- Ends with the article id, so that rows with equal keys keep their places. -/
def orderText (o : SortOrder) : String :=
  String.intercalate ", "
    (o.keys.map (fun k => sortColumnName k.column ++ " " ++ directionName k.direction) ++
      ["e.id DESC"])

def rowColumns (includeContent : Bool) : List String :=
  ["e.id", "ue.int_id", "e.guid", "e.title", "e.link", "e.author",
   if includeContent then "e.content" else "NULL",
   "e.score", "e.date_entered", "e.updated", "ue.unread", "ue.marked", "ue.published", "ue.note",
   "ue.feed_id", "f.title", "ue.last_read", "ue.last_marked", "ue.last_published",
   "ue.label_cache", "ue.tag_cache", "iso_year_week(e.date_entered)"]

/-- Articles with their copies and feeds; copies without a feed are kept or dropped. -/
def tables (allowArchived : Bool) : String :=
  "entries e JOIN user_entries ue ON ue.ref_id = e.id " ++
    (if allowArchived then "LEFT JOIN" else "JOIN") ++ " feeds f ON f.id = ue.feed_id"

def ownedBy (owner : Int) (filter : Predicate) : Statement :=
  [.text "ue.owner_uid = ", .param (.int owner), .text " AND "] ++ condition filter

def pageWindow (limit : Option Int) (offset : Int) : Statement :=
  match limit with
  | some limit => [.text " LIMIT ", .param (.int limit), .text " OFFSET ", .param (.int offset)]
  | none => if 0 < offset then [.text " LIMIT -1 OFFSET ", .param (.int offset)] else []

def page (q : ListingQuery) : Statement :=
  [.text ("SELECT " ++ (if q.distinct then "DISTINCT " else "") ++
      String.intercalate ", " (rowColumns q.includeContent) ++
      " FROM " ++ tables q.allowArchived ++ " WHERE ")] ++
    ownedBy q.owner q.filter ++
    [.text (" ORDER BY " ++ orderText q.order)] ++
    pageWindow q.limit q.offset

def firstId (q : ListingQuery) (since : Instant) : Statement :=
  [.text ("SELECT e.id FROM " ++ tables q.allowArchived ++ " WHERE ")] ++
    ownedBy q.owner (q.recentFilter since) ++
    [.text (" ORDER BY " ++ orderText q.order ++ " LIMIT 1")]

def count (owner : Int) (allowArchived : Bool) (filter : Predicate) : Statement :=
  [.text ("SELECT COUNT(DISTINCT ue.int_id) FROM " ++ tables allowArchived ++ " WHERE ")] ++
    ownedBy owner filter

/-- Reads at most one row, to see whether the filter can be evaluated. -/
def trial (owner : Int) (filter : Predicate) : Statement :=
  [.text ("SELECT 1 FROM " ++ tables true ++ " WHERE ")] ++ ownedBy owner filter ++
    [.text " LIMIT 1"]

end Sql

end Newsfeed
