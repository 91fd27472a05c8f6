import Newsfeed.Listing.Answer
import Newsfeed.Listing.Request
import Newsfeed.Search.Compile

/-!
What plugins add. Each kind is asked in the order in which its plugins were added, and the first
that has an answer gives it.
-/

namespace Newsfeed

/-- Serves the feeds of plugins; the number it is given is that of the plugin. -/
structure FeedHandler where
  headlines : Int → Request → Context → Except Failure (Option Answer)
  unread : Int → Context → Except Failure (Option Int)

structure Plugins where
  /-- Gives searches another meaning. -/
  searches : List (String → Context → Option CompiledSearch)
  /-- Gives names of orders another meaning. -/
  orders : List (String → Option SortOrder)
  feeds : List FeedHandler

namespace Plugins

def none : Plugins := ⟨[], [], []⟩

/-- The first answer in a list of questions; a failure before it ends the asking. -/
def firstAnswer {α β : Type} (ask : α → Except Failure (Option β)) :
    List α → Except Failure (Option β)
  | [] => .ok Option.none
  | a :: rest =>
    match ask a with
    | .error e => .error e
    | .ok (some b) => .ok (some b)
    | .ok Option.none => firstAnswer ask rest

def searchFor? (p : Plugins) (search : String) (ctx : Context) : Option CompiledSearch :=
  p.searches.findSome? fun t => t search ctx

def orderFor? (p : Plugins) (orderBy : String) : Option SortOrder :=
  p.orders.findSome? fun o => o orderBy

def feedHeadlines (p : Plugins) (id : Int) (request : Request) (ctx : Context) :
    Except Failure (Option Answer) :=
  firstAnswer (fun h => h.headlines id request ctx) p.feeds

def feedUnread (p : Plugins) (id : Int) (ctx : Context) : Except Failure (Option Int) :=
  firstAnswer (fun h => h.unread id ctx) p.feeds

end Plugins

end Newsfeed
