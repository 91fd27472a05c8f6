/-!
What the store holds. Articles are shared by all owners; each owner has copies of them, which carry
what the owner did with them. Times are held as stored text.
-/

namespace Newsfeed

structure Category where
  id : Int
  owner : Int
  parent : Option Int
  title : String
  deriving DecidableEq, Repr

structure Feed where
  id : Int
  owner : Int
  url : String
  title : Option String
  siteUrl : Option String
  category : Option Int
  lastError : Option String
  lastUpdated : Option String
  deriving DecidableEq, Repr

/-- A feed without a title is shown by its address. -/
def Feed.displayTitle (f : Feed) : String := f.title.getD f.url

structure Article where
  id : Int
  guid : String
  title : String
  link : Option String
  content : String
  contentHash : String
  author : Option String
  score : Int
  dateEntered : String
  updated : String
  deriving DecidableEq, Repr

/-- The words under which an article is found. -/
structure IndexRow where
  article : Int
  words : List String
  deriving DecidableEq, Repr

/-- The text of the index row: its words with spaces between them. -/
def IndexRow.body (r : IndexRow) : String := String.intercalate " " r.words

/-- An owner's copy of an article. One without a feed is archived. -/
structure Copy where
  id : Int
  article : Int
  owner : Int
  feed : Option Int
  unread : Bool
  marked : Bool
  published : Bool
  note : Option String
  lastRead : Option String
  lastMarked : Option String
  lastPublished : Option String
  /-- The captions of the article's labels that the owner has, with commas between them. -/
  labelCache : String
  /-- The tags of the copy, with commas between them. -/
  tagCache : String
  deriving DecidableEq, Repr

structure Label where
  id : Int
  owner : Int
  caption : String
  deriving DecidableEq, Repr

/-- An article carries a label. -/
structure Labeling where
  label : Int
  article : Int
  deriving DecidableEq, Repr

structure Tag where
  owner : Int
  copy : Int
  name : String
  deriving DecidableEq, Repr

structure StoredPreference where
  owner : Int
  name : String
  value : String
  deriving DecidableEq, Repr

/-- The number that the next row of each table gets. Numbers are never given twice. -/
structure Counts where
  categories : Nat
  feeds : Nat
  articles : Nat
  copies : Nat
  labels : Nat
  deriving DecidableEq, Repr

/-- Rows stand in the order in which they were written. -/
structure Store where
  categories : List Category
  feeds : List Feed
  articles : List Article
  index : List IndexRow
  copies : List Copy
  labels : List Label
  labelings : List Labeling
  tags : List Tag
  prefs : List StoredPreference
  next : Counts
  deriving DecidableEq, Repr

def Store.empty : Store := ⟨[], [], [], [], [], [], [], [], [], ⟨1, 1, 1, 1, 1⟩⟩

end Newsfeed
