import Newsfeed.Listing.Plan

/-!
The pagination guard. A reader who turns pages remembers the first row. When an article has arrived
since and stands before that row, every later page is shifted, and the reader has to start over.
-/

namespace Newsfeed

/-- The guard leaves tags, searches and orders that ask for it alone. -/
def Plan.isGuarded (p : Plan) (request : Request) : Bool :=
  !p.selection.kind.isTag && p.search.isNone && !p.query.order.skipsGuard && !request.skipGuard

structure GuardOutcome where
  /-- The first row among recent arrivals. -/
  firstId : Option Int
  invalidated : Bool
  deriving DecidableEq, Repr

/-- A later page is out of date if a first row is known and is not the one remembered. -/
def Page.isOutdated (page : Page) (firstId : Option Int) : Bool :=
  match firstId, page.expectedFirst with
  | some first, some expected => decide (0 < page.offset) && expected != 0 && first != expected
  | _, _ => false

namespace Engine

def guard (e : Engine) (ctx : Context) (query : ListingQuery) (page : Page) (minutes : Int) :
    Except Failure GuardOutcome :=
  let since := Time.minutesBefore ctx.now minutes
  ((e.reads ctx).firstId? query since).map fun first =>
    ⟨first, page.isOutdated first⟩

end Engine

end Newsfeed
