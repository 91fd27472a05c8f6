import Newsfeed.Failure
import Newsfeed.Preferences
import Newsfeed.Scan.Walk

namespace Newsfeed

open Newsfeed.Text Newsfeed.Time

/-- A row of a listing as it is answered. -/
structure Headline where
  id : Int
  copy : Int
  guid : String
  title : String
  link : Option String
  author : Option String
  content : Option String
  score : Int
  dateEntered : Option Instant
  updated : Option Instant
  unread : Bool
  marked : Bool
  published : Bool
  note : Option String
  feed : Option Int
  feedTitle : Option String
  lastRead : Option Instant
  lastMarked : Option Instant
  lastPublished : Option Instant
  labelCache : String
  tagCache : String
  yearWeek : Option String
  deriving DecidableEq, Repr

def Joined.headline (r : Joined) (includeContent : Bool) : Headline where
  id := r.article.id
  copy := r.copy.id
  guid := r.article.guid
  title := r.article.title
  link := r.article.link
  author := r.article.author
  content := if includeContent then some r.article.content else none
  score := r.article.score
  dateEntered := Instant.ofStoredText? r.article.dateEntered
  updated := Instant.ofStoredText? r.article.updated
  unread := r.copy.unread
  marked := r.copy.marked
  published := r.copy.published
  note := r.copy.note
  feed := r.copy.feed
  feedTitle := r.feed.bind Feed.title
  lastRead := r.copy.lastRead.bind Instant.ofStoredText?
  lastMarked := r.copy.lastMarked.bind Instant.ofStoredText?
  lastPublished := r.copy.lastPublished.bind Instant.ofStoredText?
  labelCache := r.copy.labelCache
  tagCache := r.copy.tagCache
  yearWeek := weekText? r.article.dateEntered

/-- The rows from an offset on, at most `limit` of them. A negative limit is none, and a negative
offset is zero. -/
def pageOf {α : Type} (rows : List α) (limit : Option Int) (offset : Int) : List α :=
  let rest := rows.drop offset.toNat
  match limit with
  | some n => if n < 0 then rest else rest.take n.toNat
  | none => rest

/-- What is counted of the copies of one feed; of the archived copies where there is no feed. -/
structure FeedCounter where
  feed : Option Int
  category : Option Int
  unread : Nat
  marked : Nat
  markedUnread : Nat
  publishedUnread : Nat
  freshUnread : Nat
  deriving DecidableEq, Repr

/-- What the rows of a listing are read for. A negative limit is none, and a negative offset is
zero. -/
def ListingQuery.purpose (q : ListingQuery) : Scan.Purpose :=
  .page q.order ((q.limit.filter fun n => 0 ≤ n).map Int.toNat) q.offset.toNat q.distinct

namespace Store

/-- The fault that a read meets, if it meets one. -/
def fault? (s : Store) (owner : Int) (allowArchived : Bool) (filter : Predicate)
    (purpose : Scan.Purpose) : Option Fault :=
  let condition := Scan.Condition.ofPredicate filter
  if condition.isTooDeep then some .tooDeep
  else if !condition.mayFail || purpose.limit? = some 0 then none
  else match (Scan.Goal.ofFilter condition allowArchived purpose).run s owner with
    | .error e => some e
    | .ok _ => none

/-- The owner's rows that pass a filter, if they can be read. -/
def find (s : Store) (owner : Int) (allowArchived : Bool) (filter : Predicate)
    (purpose : Scan.Purpose) : Except Fault (List Joined) :=
  match s.fault? owner allowArchived filter purpose with
  | some e => .error e
  | none => .ok (s.matching owner allowArchived filter)

/-- All the rows of a listing in order, a repeated one once where that is asked for. -/
def listing (s : Store) (q : ListingQuery) : List Headline :=
  let rows := (q.order.sort (s.matching q.owner q.allowArchived q.filter)).map fun r =>
    r.headline q.includeContent
  if q.distinct then rows.eraseDups else rows

/-- A page of a listing. -/
def headlines (s : Store) (q : ListingQuery) : Except Fault (List Headline) :=
  match s.fault? q.owner q.allowArchived q.filter q.purpose with
  | some e => .error e
  | none => .ok (pageOf (s.listing q) q.limit q.offset)

/-- The article id of the first row of a listing among those that arrived since a time. -/
def firstId? (s : Store) (q : ListingQuery) (since : Instant) : Except Fault (Option Int) :=
  (s.find q.owner q.allowArchived (q.recentFilter since) (.first q.order)).map fun rows =>
    (q.order.sort rows).head?.map fun r => r.article.id

def count (s : Store) (owner : Int) (allowArchived : Bool) (filter : Predicate) :
    Except Fault Nat :=
  (s.find owner allowArchived filter .count).map fun rows =>
    ((rows.map fun r => r.copy.id).eraseDups).length

/-- Each full-text query on its own. -/
def tryTerms : List (String × String) → Except Fault Unit
  | [] => .ok ()
  | (language, query) :: terms =>
    match FullText.compile language query with
    | .ok _ => tryTerms terms
    | .error e => .error (.ofQuery e)

/-- Whether a filter can be run. Its full-text queries are tried by themselves first, as no row may
come so far as to reach them; one that is refused is the answer no, any other fault is passed
on. -/
def probe (s : Store) (owner : Int) (filter : Predicate) : Except Fault Bool :=
  let tried := (tryTerms filter.fullTextTerms).bind fun _ => s.find owner true filter .trial
  match tried with
  | .ok _ => .ok true
  | .error (.query _) => .ok false
  | .error e => .error e

def feed? (s : Store) (owner id : Int) : Option Feed :=
  s.feeds.find? fun f => f.id = id ∧ f.owner = owner

/-- The feeds of an owner by title, those without one first, and by address. -/
def feedsOfOwner (s : Store) (owner : Int) : List Feed :=
  (s.feeds.filter fun f => f.owner = owner).mergeSort fun a b =>
    ((Cell.ofText? a.title).sortOrder (Cell.ofText? b.title)).then (compare a.url b.url) != .gt

def category? (s : Store) (owner id : Int) : Option Category :=
  s.categories.find? fun c => c.id = id ∧ c.owner = owner

/-- The categories of an owner by number. -/
def categoriesOfOwner (s : Store) (owner : Int) : List Category :=
  (s.categories.filter fun c => c.owner = owner).mergeSort fun a b => a.id ≤ b.id

def label? (s : Store) (owner id : Int) : Option Label :=
  s.labels.find? fun l => l.id = id ∧ l.owner = owner

/-- A label of the owner by its caption in any case. Of several it is the one whose caption is
first by code points. -/
def findLabel? (s : Store) (owner : Int) (caption : String) : Option Int :=
  let found := s.labels.filter fun l =>
    l.owner = owner ∧ lowercase l.caption = lowercase caption
  (found.mergeSort fun a b => compare a.caption b.caption != .gt).head?.map Label.id

def preferences (s : Store) (owner : Int) (defaults : Preferences) : Preferences :=
  Preferences.ofRows defaults
    ((s.prefs.filter fun p => p.owner = owner).map fun p => (p.name, p.value))

/-- Counts the copies of one feed among an owner's rows. -/
def counterOf (rows : List Joined) (since : String) (feed : Option Int) : FeedCounter :=
  let group := rows.filter fun r => r.copy.feed = feed
  { feed
    category := group.head?.bind fun r => r.feed.bind Feed.category
    unread := group.countP fun r => r.copy.unread
    marked := group.countP fun r => r.copy.marked
    markedUnread := group.countP fun r => r.copy.marked && r.copy.unread
    publishedUnread := group.countP fun r => r.copy.published && r.copy.unread
    freshUnread := group.countP fun r => r.copy.unread && decide (0 ≤ r.article.score) &&
      compare r.article.dateEntered since == .gt }

/-- The counts of each feed that the owner has copies of, the archived copies first and then by
number. -/
def feedCounters (s : Store) (owner : Int) (since : Instant) : List FeedCounter :=
  let rows := (s.joined true).filter fun r => r.copy.owner = owner
  let feeds := ((rows.map fun r => r.copy.feed).eraseDups).mergeSort fun a b =>
    (Cell.ofInt? a).sortOrder (Cell.ofInt? b) != .gt
  feeds.map (counterOf rows since.storedText)

/-- How many unread copies of the owner carry each of the owner's labels, by number. -/
def labelCounts (s : Store) (owner : Int) : List (Int × Nat) :=
  let labels := (s.labels.filter fun l => l.owner = owner).mergeSort fun a b => a.id ≤ b.id
  labels.map fun l =>
    (l.id, s.copies.countP fun c =>
      c.owner = owner ∧ c.unread ∧ s.labelings.contains (Labeling.mk l.id c.article))

end Store

end Newsfeed
