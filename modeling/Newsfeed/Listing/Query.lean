import Newsfeed.Order
import Newsfeed.Predicate.Basic

namespace Newsfeed

open Newsfeed.Time

/-- What a listing reads. -/
structure ListingQuery where
  owner : Int
  /-- Rows whose feed is gone belong to it. -/
  allowArchived : Bool
  filter : Predicate
  order : SortOrder
  distinct : Bool
  includeContent : Bool
  limit : Option Int
  offset : Int
  deriving Repr

/-- The filter of a listing held to what arrived since a time. -/
def ListingQuery.recentFilter (q : ListingQuery) (since : Instant) : Predicate :=
  Predicate.all [.compare .dateEntered .ge (.time since), q.filter]

end Newsfeed
