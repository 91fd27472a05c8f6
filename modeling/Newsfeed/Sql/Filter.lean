import Newsfeed.FullText.MatchTree
import Newsfeed.Predicate.Basic
import Newsfeed.Sql.Like
import Newsfeed.Sql.Statement
import Newsfeed.Time.StoredText

/-!
Filters as conditions of a statement. Only names of the closed sets of columns and fixed words are
written into the text; every value is handed over beside it.
-/

namespace Newsfeed.Sql

def columnName : Column → String
  | .entryId => "e.id"
  | .title => "e.title"
  | .content => "e.content"
  | .author => "e.author"
  | .score => "e.score"
  | .dateEntered => "e.date_entered"
  | .updated => "e.updated"
  | .unread => "ue.unread"
  | .marked => "ue.marked"
  | .published => "ue.published"
  | .note => "ue.note"
  | .feedId => "ue.feed_id"
  | .categoryId => "f.cat_id"
  | .lastRead => "ue.last_read"
  | .lastMarked => "ue.last_marked"
  | .lastPublished => "ue.last_published"

def comparisonSign : Comparison → String
  | .eq => "="
  | .isNot => "IS NOT"
  | .lt => "<"
  | .le => "<="
  | .gt => ">"
  | .ge => ">="

/-- Switches are handed over as 0 and 1, times as stored text. -/
def valueParam : Value → Param
  | .bool b => .int (if b then 1 else 0)
  | .int n => .int n
  | .text s => .text s
  | .time t => .text t.storedText

mutual

def matchCondition : FullText.MatchTree → Statement
  | .expr e =>
    [.text "e.id IN (SELECT rowid FROM entries_fts WHERE entries_fts MATCH ",
     .param (.text e.text), .text ")"]
  | .all parts => Statement.joined " AND " (matchConditions parts)
  | .any parts => Statement.joined " OR " (matchConditions parts)
  | .no part => [.text "NOT ("] ++ matchCondition part ++ [.text ")"]

def matchConditions : List FullText.MatchTree → List Statement
  | [] => []
  | t :: ts => matchCondition t :: matchConditions ts

end

/-- A query that the index cannot be asked is left to a function that refuses it when it is
called. -/
def fullTextCondition (language query : String) : Statement :=
  match FullText.compile language query with
  | .ok tree => matchCondition tree
  | .error _ =>
    [.text "ts_check(", .param (.text language), .text ", ", .param (.text query), .text ") = 1"]

def listCondition (column : Column) (values : List Int) : Statement :=
  if values = [] then [.text "0"]
  else
    [.text (columnName column ++ " IN (")] ++
      (values.map fun n => Piece.param (.int n)).intersperse (.text ", ") ++ [.text ")"]

mutual

def condition : Predicate → Statement
  | .always => [.text "1"]
  | .never => [.text "0"]
  | .conj [] => [.text "1"]
  | .disj [] => [.text "0"]
  | .conj (p :: ps) => Statement.joined " AND " (condition p :: conditions ps)
  | .disj (p :: ps) => Statement.joined " OR " (condition p :: conditions ps)
  | .no inner => [.text "NOT ("] ++ condition inner ++ [.text ")"]
  | .compare column op value =>
    [.text (columnName column ++ " " ++ comparisonSign op ++ " "), .param (valueParam value)]
  | .isNull column => [.text (columnName column ++ " IS NULL")]
  | .notNull column => [.text (columnName column ++ " IS NOT NULL")]
  | .contains column needle =>
    [.text ("unicode_lower(" ++ columnName column ++ ") LIKE "),
     .param (.text (likePattern needle)), .text " ESCAPE '\\'"]
  | .inList column values => listCondition column values
  | .startsWith column start =>
    [.text ("SUBSTR(" ++ columnName column ++ ", 1, "), .param (.int start.length),
     .text ") = ", .param (.text start)]
  | .label id =>
    [.text "e.id IN (SELECT article_id FROM user_labels WHERE label_id = ",
     .param (.int id), .text ")"]
  | .labelOf owner =>
    [.text ("e.id IN (SELECT ul.article_id FROM user_labels ul " ++
      "JOIN labels l ON l.id = ul.label_id WHERE l.owner_uid = "),
     .param (.int owner), .text ")"]
  | .tag owner name =>
    [.text "ue.int_id IN (SELECT post_int_id FROM tags WHERE owner_uid = ",
     .param (.int owner), .text " AND tag_name = ", .param (.text name), .text ")"]
  | .fullText language query => fullTextCondition language query

def conditions : List Predicate → List Statement
  | [] => []
  | p :: ps => condition p :: conditions ps

end

end Newsfeed.Sql
