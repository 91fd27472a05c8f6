import Newsfeed.Config
import Newsfeed.Context
import Newsfeed.Counters.Forest
import Newsfeed.Listing.Request
import Newsfeed.Search.Compile
import Newsfeed.Selection

/-!
The filters of listings: which rows a reference selects, and which of them a view shows.
-/

namespace Newsfeed

def isUnread : Predicate := .compare .unread .eq (.bool true)

/-- Rows of live feeds that stand in no category. -/
def isUncategorized : Predicate := Predicate.all [.isNull .categoryId, .notNull .feedId]

/-- A category and those below it. -/
def inBranch (forest : CategoryForest) (category : Int) : Predicate :=
  .inList .categoryId (category :: forest.descendants category)

namespace SpecialFeed

def filter (limits : Limits) (ctx : Context) (freshHours : Int) : SpecialFeed → Predicate
  | starred => .compare .marked .eq (.bool true)
  | published => .compare .published .eq (.bool true)
  | fresh => Predicate.all
      [isUnread, .compare .score .ge (.int 0),
       .compare .dateEntered .gt (.time (Time.hoursBefore ctx.now freshHours))]
  | all => .always
  | archived => .isNull .feedId
  | recentlyRead => Predicate.all
      [.compare .unread .eq (.bool false), .notNull .lastRead,
       .compare .lastRead .gt (.time (Time.hoursBefore ctx.now limits.recentlyReadHours))]

end SpecialFeed

namespace Selection

/-- The rows that a selection is about. Without a forest a category is only itself. -/
def filter (s : Selection) (ctx : Context) (limits : Limits) (forest : Option CategoryForest) :
    Predicate :=
  match s.kind with
  | .feed id => .compare .feedId .eq (.int id)
  | .category id => match forest with
    | some forest =>
      if s.includeChildren then inBranch forest id else .compare .categoryId .eq (.int id)
    | none => .compare .categoryId .eq (.int id)
  | .uncategorized => isUncategorized
  | .labels => .labelOf ctx.owner
  | .label id => .label id
  | .tag name => .tag ctx.owner name
  | .plugin _ => .never
  | .special feed => feed.filter limits ctx (s.freshHours.getD ctx.prefs.freshHours)

end Selection

/-- The rows that a view shows; the adaptive one shows all here. Recently read articles are
read, so looking at the unread ones shows all of those. -/
def ViewMode.filter (mode : ViewMode) (kind : Reference) : Predicate :=
  match mode with
  | allArticles => .always
  | adaptive => .always
  | unread => if kind = .special .recentlyRead then .always else isUnread
  | marked => .compare .marked .eq (.bool true)
  | published => .compare .published .eq (.bool true)
  | hasNote => Search.hasNote

end Newsfeed
