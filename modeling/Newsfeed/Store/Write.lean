import Newsfeed.FullText.Word
import Newsfeed.Store.Basic
import Newsfeed.Store.Fault
import Newsfeed.Text.Sha256
import Newsfeed.Time.StoredText

/-!
Writing to the store. A write is a run of statements, each of which checks its row and then changes
one table; a statement that fails has changed nothing, and a transaction takes back what the
statements before it changed.
-/

namespace Newsfeed

open Newsfeed.Text Newsfeed.Time

/-- A change of the store with an answer. It goes on from the store as it is, also after a fault. -/
abbrev Write (α : Type) := ExceptT Fault (StateM Store) α

namespace Write

def require (ok : Bool) (fault : Fault) : Write Unit := if ok then pure () else throw fault

/-- All of a write or, when it fails, nothing of it. -/
def transaction {α : Type} (w : Write α) : Write α := fun store =>
  match w.run store with
  | (.ok a, after) => (.ok a, after)
  | (.error e, _) => (.error e, store)

end Write

namespace Store

/-- An optional number names a row of a table with these numbers. -/
def isNothingOr (n? : Option Int) (ids : List Int) : Bool :=
  match n? with
  | none => true
  | some n => ids.contains n

end Store

open Write

/-- Adds a category. Its parent is looked for when it is already there, so it may be its own. -/
def addCategory (owner : Int) (parent : Option Int) (title : String) : Write Int := do
  let s ← get
  let id : Int := s.next.categories
  let row : Category := ⟨id, owner, parent, title⟩
  let rows := s.categories ++ [row]
  require (Store.isNothingOr parent (rows.map Category.id)) .noSuchRow
  set { s with categories := rows, next.categories := s.next.categories + 1 }
  return id

structure NewFeed where
  owner : Int
  url : String
  title : Option String
  siteUrl : Option String
  category : Option Int
  lastError : Option String
  lastUpdated : Option Instant

/-- Adds a feed. An owner has each address once. -/
def addFeed (f : NewFeed) : Write Int := do
  let s ← get
  require (!s.feeds.any fun g => g.owner = f.owner ∧ g.url = f.url)
    (.repeated "feeds.owner_uid, feeds.url")
  require (Store.isNothingOr f.category (s.categories.map Category.id)) .noSuchRow
  let id : Int := s.next.feeds
  let row : Feed := ⟨id, f.owner, f.url, f.title, f.siteUrl, f.category, f.lastError,
    f.lastUpdated.map Instant.storedText⟩
  set { s with feeds := s.feeds ++ [row], next.feeds := s.next.feeds + 1 }
  return id

structure NewArticle where
  guid : String
  title : String
  link : Option String
  content : String
  author : Option String
  score : Int
  dateEntered : Instant
  updated : Instant

structure NewCopy where
  owner : Int
  feed : Option Int
  unread : Bool
  marked : Bool
  published : Bool
  note : Option String
  lastRead : Option Instant
  lastMarked : Option Instant
  lastPublished : Option Instant
  labelCache : String
  tagCache : String

/-- Adds an article unless there is one with its guid; says whether it did. A number is used up
either way. -/
def insertArticle (a : NewArticle) : Write Bool := do
  let s ← get
  let next := { s.next with articles := s.next.articles + 1 }
  if s.articles.any fun b => b.guid = a.guid then
    set { s with next }
    return false
  else
    let row : Article := ⟨s.next.articles, a.guid, a.title, a.link, a.content,
      Sha256.hex a.content, a.author, a.score, a.dateEntered.storedText, a.updated.storedText⟩
    set { s with articles := s.articles ++ [row], next }
    return true

def articleOfGuid (guid : String) : Write Article := do
  match (← get).articles.find? fun a => a.guid = guid with
  | some a => return a
  | none => throw .noRows

def insertIndexRow (article : Int) (title content : String) : Write Unit :=
  modify fun s => { s with index := s.index ++ [⟨article, FullText.articleWords title content⟩] }

/-- Adds an owner's copy of an article. An owner has one copy of each. -/
def insertCopy (article : Int) (c : NewCopy) : Write Int := do
  let s ← get
  require (!s.copies.any fun d => d.owner = c.owner ∧ d.article = article)
    (.repeated "user_entries.owner_uid, user_entries.ref_id")
  require ((s.articles.map Article.id).contains article) .noSuchRow
  require (Store.isNothingOr c.feed (s.feeds.map Feed.id)) .noSuchRow
  let id : Int := s.next.copies
  let row : Copy := ⟨id, article, c.owner, c.feed, c.unread, c.marked, c.published, c.note,
    c.lastRead.map Instant.storedText, c.lastMarked.map Instant.storedText,
    c.lastPublished.map Instant.storedText, c.labelCache, c.tagCache⟩
  set { s with copies := s.copies ++ [row], next.copies := s.next.copies + 1 }
  return id

/-- Adds an owner's copy of an article, and the article with its index row if it is new; answers
with the numbers of both. An article that is already there stays as it is. -/
def addArticle (a : NewArticle) (c : NewCopy) : Write (Int × Int) := transaction do
  let isNew ← insertArticle a
  let article ← articleOfGuid a.guid
  if isNew then insertIndexRow article.id a.title a.content
  let copy ← insertCopy article.id c
  return (article.id, copy)

def setContent (id : Int) (content : String) : Write Unit :=
  modify fun s => { s with articles := s.articles.map fun a =>
    if a.id = id then { a with content, contentHash := Sha256.hex content } else a }

def deleteIndexRows (article : Int) : Write Unit :=
  modify fun s => { s with index := s.index.filter fun r => r.article ≠ article }

/-- Gives an article new content, under whose words it is found from then on. -/
def updateContent (id : Int) (content : String) : Write Unit := transaction do
  match (← get).articles.find? fun a => a.id = id with
  | none => throw .noRows
  | some a =>
    setContent id content
    deleteIndexRows id
    insertIndexRow id a.title content

/-- Adds a label. An owner has each caption once. -/
def addLabel (owner : Int) (caption : String) : Write Int := do
  let s ← get
  require (!s.labels.any fun l => l.owner = owner ∧ l.caption = caption)
    (.repeated "labels.owner_uid, labels.caption")
  let id : Int := s.next.labels
  let row : Label := ⟨id, owner, caption⟩
  set { s with labels := s.labels ++ [row], next.labels := s.next.labels + 1 }
  return id

/-- Puts a label on an article. One that is there already stays. -/
def insertLabeling (label article : Int) : Write Unit := do
  let s ← get
  let row : Labeling := ⟨label, article⟩
  if s.labelings.contains row then return ()
  else
    require ((s.labels.map Label.id).contains label) .noSuchRow
    require ((s.articles.map Article.id).contains article) .noSuchRow
    set { s with labelings := s.labelings ++ [row] }

/-- The captions of the labels of an article that an owner has. -/
def Store.captionsOn (s : Store) (owner article : Int) : List String :=
  (s.labels.filter fun l =>
    l.owner = owner ∧ s.labelings.contains (Labeling.mk l.id article)).map Label.caption

def refreshLabelCaches (article : Int) : Write Unit :=
  modify fun s => { s with copies := s.copies.map fun c =>
    if c.article = article then
      { c with labelCache := String.intercalate "," (s.captionsOn c.owner article) }
    else c }

/-- Puts a label on an article, for every owner's copy of it. -/
def assignLabel (label article : Int) : Write Unit := do
  insertLabeling label article
  refreshLabelCaches article

/-- Puts a tag on a copy. One that is there already stays, whoever put it there. -/
def insertTag (owner copy : Int) (name : String) : Write Unit := do
  let s ← get
  if s.tags.any fun t => t.copy = copy ∧ t.name = name then return ()
  else
    require ((s.copies.map Copy.id).contains copy) .noSuchRow
    let row : Tag := ⟨owner, copy, name⟩
    set { s with tags := s.tags ++ [row] }

def Store.tagsOn (s : Store) (copy : Int) : List String :=
  (s.tags.filter fun t => t.copy = copy).map Tag.name

def refreshTagCache (copy : Int) : Write Unit :=
  modify fun s => { s with copies := s.copies.map fun c =>
    if c.id = copy then { c with tagCache := String.intercalate "," (s.tagsOn copy) } else c }

def addTag (owner copy : Int) (name : String) : Write Unit := do
  insertTag owner copy name
  refreshTagCache copy

/-- Stores a preference of an owner in place of the one of the same name. -/
def setPreference (owner : Int) (name value : String) : Write Unit :=
  modify fun s =>
    let row : StoredPreference := ⟨owner, name, value⟩
    let same (p : StoredPreference) : Bool := p.owner = owner ∧ p.name = name
    { s with prefs :=
        if s.prefs.any same then s.prefs.map fun p => if same p then row else p
        else s.prefs ++ [row] }

end Newsfeed
