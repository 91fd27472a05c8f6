import Newsfeed.Listing.Query
import Newsfeed.Predicate.Meaning
import Newsfeed.Store.Basic

/-!
The rows that listings are made of: each copy with its article and its feed. A filter tells which of
them are kept, and an order sorts them.
-/

namespace Newsfeed

open Newsfeed.Time

structure Joined where
  article : Article
  copy : Copy
  feed : Option Feed
  deriving DecidableEq, Repr

namespace Cell

def ofText? : Option String → Cell
  | some s => .text s
  | none => .null

def ofInt? : Option Int → Cell
  | some n => .int n
  | none => .null

def ofSwitch? : Option Bool → Cell
  | some b => .int (if b then 1 else 0)
  | none => .null

/-- The order in which cells are sorted: null, then numbers by size, then texts by code points. -/
def sortOrder : Cell → Cell → Ordering
  | .null, .null => .eq
  | .null, _ => .lt
  | _, .null => .gt
  | .int a, .int b => compare a b
  | .int _, .text _ => .lt
  | .text _, .int _ => .gt
  | .text a, .text b => compare a b

end Cell

/-- A row as far as it has been put together. -/
structure Look where
  article : Option Article
  copy : Option Copy
  feed : Option Feed
  deriving DecidableEq, Repr

namespace Look

def empty : Look := ⟨none, none, none⟩

/-- The number of the article, which a copy knows too. -/
def articleId? (l : Look) : Option Int :=
  (l.article.map Article.id).or (l.copy.map Copy.article)

/-- The number of the feed that the copy has, or that it is to have. -/
def feedId? (l : Look) : Option Int :=
  match l.copy with
  | some c => c.feed
  | none => l.feed.map Feed.id

def cell (l : Look) : Column → Cell
  | .entryId => Cell.ofInt? l.articleId?
  | .title => Cell.ofText? (l.article.map Article.title)
  | .content => Cell.ofText? (l.article.map Article.content)
  | .author => Cell.ofText? (l.article.bind Article.author)
  | .score => Cell.ofInt? (l.article.map Article.score)
  | .dateEntered => Cell.ofText? (l.article.map Article.dateEntered)
  | .updated => Cell.ofText? (l.article.map Article.updated)
  | .unread => Cell.ofSwitch? (l.copy.map Copy.unread)
  | .marked => Cell.ofSwitch? (l.copy.map Copy.marked)
  | .published => Cell.ofSwitch? (l.copy.map Copy.published)
  | .note => Cell.ofText? (l.copy.bind Copy.note)
  | .feedId => Cell.ofInt? l.feedId?
  | .categoryId => Cell.ofInt? (l.feed.bind Feed.category)
  | .lastRead => Cell.ofText? (l.copy.bind Copy.lastRead)
  | .lastMarked => Cell.ofText? (l.copy.bind Copy.lastMarked)
  | .lastPublished => Cell.ofText? (l.copy.bind Copy.lastPublished)

/-- The feed is that of the copy, as far as both are there. -/
def isWhole (l : Look) : Bool :=
  l.copy.all fun c => l.feed.all fun f => c.feed = some f.id

end Look

namespace Joined

def look (r : Joined) : Look := ⟨some r.article, some r.copy, r.feed⟩

def sortCell (r : Joined) : SortColumn → Cell
  | .score => .int r.article.score
  | .dateEntered => .text r.article.dateEntered
  | .updated => .text r.article.updated
  | .title => .text r.article.title
  | .lastMarked => Cell.ofText? r.copy.lastMarked
  | .lastPublished => Cell.ofText? r.copy.lastPublished
  | .lastRead => Cell.ofText? r.copy.lastRead
  | .feedTitle => Cell.ofText? (r.feed.bind Feed.title)
  | .yearWeek => Cell.ofText? (weekText? r.article.dateEntered)

end Joined

def Direction.apply : Direction → Ordering → Ordering
  | .asc, o => o
  | .desc, o => o.swap

namespace SortOrder

def compareKeys (a b : Joined) : List SortKey → Ordering
  | [] => .eq
  | k :: ks =>
    (k.direction.apply ((a.sortCell k.column).sortOrder (b.sortCell k.column))).then
      (compareKeys a b ks)

/-- The order of two rows: by the keys, then by article id from the greatest down. -/
def compareRows (o : SortOrder) (a b : Joined) : Ordering :=
  (compareKeys a b o.keys).then (compare b.article.id a.article.id)

def sort (o : SortOrder) (rows : List Joined) : List Joined :=
  rows.mergeSort fun a b => o.compareRows a b != .gt

end SortOrder

namespace Store

/-- The feeds beside a copy, or nothing in place of one where copies without a feed are kept. -/
def feedsOf (s : Store) (allowArchived : Bool) (c : Copy) : List (Option Feed) :=
  let found := s.feeds.filter fun f => c.feed = some f.id
  if found = [] ∧ allowArchived then [none] else found.map some

def joined (s : Store) (allowArchived : Bool) : List Joined :=
  s.articles.flatMap fun a =>
    (s.copies.filter fun c => c.article = a.id).flatMap fun c =>
      (s.feedsOf allowArchived c).map fun f => ⟨a, c, f⟩

def indexedWords (s : Store) (article : Int) : List String :=
  ((s.index.find? fun r => r.article = article).map IndexRow.words).getD []

/-- The article carries a label of the owner. -/
def hasLabelOf (s : Store) (article owner : Int) : Bool :=
  s.labelings.any fun l => l.article = article ∧
    s.labels.any fun b => b.id = l.label ∧ b.owner = owner

def facts (s : Store) (r : Joined) : Facts where
  cell := r.look.cell
  hasLabel id := s.labelings.contains ⟨id, r.article.id⟩
  hasLabelOf owner := s.hasLabelOf r.article.id owner
  hasTag owner name := s.tags.contains ⟨owner, r.copy.id, name⟩
  words := s.indexedWords r.article.id

/-- The owner's rows that pass a filter. -/
def matching (s : Store) (owner : Int) (allowArchived : Bool) (filter : Predicate) :
    List Joined :=
  (s.joined allowArchived).filter fun r => r.copy.owner = owner && filter.admits (s.facts r)

end Store

end Newsfeed
