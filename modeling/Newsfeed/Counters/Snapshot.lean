import Newsfeed.Counters.Count

/-!
All the numbers of the sidebar at once, added up from the counts of the feeds.
-/

namespace Newsfeed

structure Tally where
  unread : Int
  marked : Int
  deriving DecidableEq, Repr

/-- Numbers by id, from the smallest id up. -/
structure Snapshot where
  feeds : List (Int × Tally)
  /-- With those below each; number 0 is what stands in no category. -/
  categories : List (Int × Tally)
  labels : List (Int × Int)
  virtualFeeds : List (Int × Int)
  /-- Unread articles of live feeds. -/
  unread : Int
  deriving DecidableEq, Repr

/-- Puts an entry in a list that is sorted by id, in place of one with the same id. -/
def putById {α : Type} (id : Int) (a : α) : List (Int × α) → List (Int × α)
  | [] => [(id, a)]
  | (i, b) :: rest =>
    if id < i then (id, a) :: (i, b) :: rest
    else if id = i then (id, a) :: rest
    else (i, b) :: putById id a rest

namespace FeedCounter

def sumOf (count : FeedCounter → Nat) (counters : List FeedCounter) : Int :=
  counters.foldl (fun n c => n + (count c : Int)) 0

/-- The counts of live feeds. -/
def live (counters : List FeedCounter) : List FeedCounter :=
  counters.filter fun c => c.feed.isSome

/-- What a category counts by itself. -/
def inCategory (count : FeedCounter → Nat) (counters : List FeedCounter) (category : Int) : Int :=
  sumOf count ((live counters).filter fun c => c.category.getD 0 = category)

end FeedCounter

open FeedCounter

def feedTallies (feeds : List Feed) (counters : List FeedCounter) : List (Int × Tally) :=
  let zeros := feeds.foldl (fun m f => putById f.id (Tally.mk 0 0) m) []
  counters.foldl (fun m c => match c.feed with
    | some id => putById id ⟨c.unread, c.marked⟩ m
    | none => m) zeros

def categoryTallies (forest : CategoryForest) (counters : List FeedCounter) : List (Int × Tally) :=
  let unread := inCategory FeedCounter.unread counters
  let marked := inCategory FeedCounter.marked counters
  let nodes := forest.ids.foldl
    (fun m id => putById id ⟨forest.total unread id, forest.total marked id⟩ m) []
  putById 0 ⟨unread 0, marked 0⟩ nodes

/-- Starred and published count archived articles too, fresh does not, and the recently read
articles have no number. -/
def specialCounts (counters : List FeedCounter) : List (Int × Int) :=
  let archived := counters.filter fun c => c.feed.isNone
  let counts : List (SpecialFeed × Int) :=
    [(.starred, sumOf FeedCounter.markedUnread counters),
     (.published, sumOf FeedCounter.publishedUnread counters),
     (.fresh, sumOf FeedCounter.freshUnread (live counters)),
     (.all, sumOf FeedCounter.unread counters),
     (.archived, sumOf FeedCounter.unread archived),
     (.recentlyRead, 0)]
  counts.foldl (fun m c => putById c.1.id c.2 m) []

namespace Engine

def snapshot (e : Engine) (ctx : Context) : Except Failure Snapshot := do
  let since := Time.hoursBefore ctx.now ctx.prefs.freshHours
  let counters ← (e.reads ctx).feedCounters ctx.owner since
  let feeds ← (e.reads ctx).feeds ctx.owner
  let forest ← e.forest ctx
  ctx.token.check
  let labels ← (e.reads ctx).labelCounts ctx.owner
  return {
    feeds := feedTallies feeds counters
    categories := categoryTallies forest counters
    labels := labels.map fun l => (l.1, (l.2 : Int))
    virtualFeeds := specialCounts counters
    unread := sumOf FeedCounter.unread (live counters) }

end Engine

end Newsfeed
