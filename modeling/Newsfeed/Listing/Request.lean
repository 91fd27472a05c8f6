import Newsfeed.Reference
import Newsfeed.Time.Instant

namespace Newsfeed

/-- Which of the selected rows are listed. -/
inductive ViewMode where
  | allArticles
  | unread
  /-- The unread rows where there are any, else all of them. -/
  | adaptive
  | marked
  | published
  | hasNote
  deriving DecidableEq, Repr

namespace ViewMode

def name : ViewMode → String
  | allArticles => "all_articles"
  | unread => "unread"
  | adaptive => "adaptive"
  | marked => "marked"
  | published => "published"
  | hasNote => "has_note"

/-- Anything that is not the name of another mode is all articles. -/
def read (s : String) : ViewMode :=
  match Text.trim s with
  | "unread" => unread
  | "adaptive" => adaptive
  | "marked" => marked
  | "published" => published
  | "has_note" => hasNote
  | _ => allArticles

end ViewMode

structure Page where
  /-- Nothing or less asks for the default. -/
  limit : Int
  offset : Int
  /-- The first row that the reader remembers. -/
  expectedFirst : Option Int
  deriving DecidableEq, Repr

structure Request where
  feed : Address
  isCategory : Bool
  includeChildren : Bool
  viewMode : ViewMode
  search : Option String
  searchLanguage : Option String
  orderBy : String
  page : Page
  sinceId : Option Int
  start : Option Time.Instant
  includeContent : Bool
  skipGuard : Bool
  deriving DecidableEq, Repr

/-- A request for a feed and nothing else. -/
def Request.plain (feed : Address) : Request :=
  ⟨feed, false, false, .allArticles, none, none, "", ⟨0, 0, none⟩, none, none, false, false⟩

end Newsfeed
