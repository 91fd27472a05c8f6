import Newsfeed.Store.Read

namespace Newsfeed

/-- The store as a request reads it: every read is refused once the request is told to stop. -/
structure GuardedStore where
  store : Store
  token : CancelToken

def Store.under (s : Store) (t : CancelToken) : GuardedStore := ⟨s, t⟩

namespace GuardedStore

def headlines (g : GuardedStore) (q : ListingQuery) : Except Failure (List Headline) :=
  g.token.guarded (g.store.headlines q)

def firstId? (g : GuardedStore) (q : ListingQuery) (since : Time.Instant) :
    Except Failure (Option Int) :=
  g.token.guarded (g.store.firstId? q since)

def count (g : GuardedStore) (owner : Int) (allowArchived : Bool) (filter : Predicate) :
    Except Failure Int :=
  (g.token.guarded (g.store.count owner allowArchived filter)).map Int.ofNat

def probe (g : GuardedStore) (owner : Int) (filter : Predicate) : Except Failure Bool :=
  g.token.guarded (g.store.probe owner filter)

def feed? (g : GuardedStore) (owner id : Int) : Except Failure (Option Feed) :=
  g.token.guarded (.ok (g.store.feed? owner id))

def feeds (g : GuardedStore) (owner : Int) : Except Failure (List Feed) :=
  g.token.guarded (.ok (g.store.feedsOfOwner owner))

def category? (g : GuardedStore) (owner id : Int) : Except Failure (Option Category) :=
  g.token.guarded (.ok (g.store.category? owner id))

def categories (g : GuardedStore) (owner : Int) : Except Failure (List Category) :=
  g.token.guarded (.ok (g.store.categoriesOfOwner owner))

def label? (g : GuardedStore) (owner id : Int) : Except Failure (Option Label) :=
  g.token.guarded (.ok (g.store.label? owner id))

def findLabel? (g : GuardedStore) (owner : Int) (caption : String) :
    Except Failure (Option Int) :=
  g.token.guarded (.ok (g.store.findLabel? owner caption))

def preferences (g : GuardedStore) (owner : Int) (defaults : Preferences) :
    Except Failure Preferences :=
  g.token.guarded (.ok (g.store.preferences owner defaults))

def feedCounters (g : GuardedStore) (owner : Int) (since : Time.Instant) :
    Except Failure (List FeedCounter) :=
  g.token.guarded (.ok (g.store.feedCounters owner since))

def labelCounts (g : GuardedStore) (owner : Int) : Except Failure (List (Int × Nat)) :=
  g.token.guarded (.ok (g.store.labelCounts owner))

end GuardedStore

end Newsfeed
