import Newsfeed.Proofs.FullText.Written
import Newsfeed.Proofs.Sql.Grammar
import Newsfeed.Proofs.Sql.Pattern
import Newsfeed.Sql.Function
import Newsfeed.Store.Join

/-!
What the database makes of an expression for a row. Logic is three-valued, with null for what is
unknown and 0 and 1 for the others. There is no value where a name is not known, a function has
nothing to say, or a text stands for a condition.
-/

namespace Newsfeed.Sql

open Newsfeed.FullText

section Values

/-- What is made of a value where a condition stands. -/
def truth? : Cell → Option Truth
  | .null => some none
  | .int n => some (some (n ≠ 0))
  | .text _ => none

def ofBool (b : Bool) : Cell := .int (if b then 1 else 0)

def ofTruth : Truth → Cell
  | some b => ofBool b
  | none => .null

def Sign.accepts : Sign → Ordering → Bool
  | eq, o => o == .eq
  | lt, o => o == .lt
  | le, o => o != .gt
  | gt, o => o == .gt
  | ge, o => o != .lt

/-- The comparison of a column, or of something of one kind with the value beside it. -/
def Sign.truth (op : Sign) (a b : Cell) : Truth := (a.order? b).map op.accepts

/-- Null is the same as null, and as nothing else. -/
def isSame (a b : Cell) : Bool :=
  match a.order? b with
  | some o => o == .eq
  | none => a = .null ∧ b = .null

def isAmong (a : Cell) (values : List Cell) : Truth :=
  values.foldr (fun v t => (Sign.eq.truth a v).or t) (some false)

/-- Numbers are taken as their texts where a text is asked for. -/
def textOfCell? : Cell → Option String
  | .null => none
  | .int n => some (toString n)
  | .text s => some s

/-- Characters from the one with the given number on, the first being number one. -/
def substring (s : String) (first count : Nat) : String :=
  String.ofList (((untilNul s.toList).drop (first - 1)).take count)

def callFunction (function : Name) (args : List Cell) : Option Cell :=
  if function = "unicode_lower".toList then match args with
    | [c] => (unicodeLower c).toOption
    | _ => none
  else if function = "SUBSTR".toList then match args with
    | [c, .int first, .int count] =>
      if 0 < first ∧ 0 ≤ count then
        some (Cell.ofText? ((textOfCell? c).map fun s => substring s first.toNat count.toNat))
      else none
    | _ => none
  else if function = "ts_check".toList then match args with
    | [language, query] => (tsCheck language query).toOption
    | _ => none
  else none

/-- The escape is a single character. -/
def likeCells (a pattern escape : Cell) : Option Cell :=
  match escape with
  | .text e => match e.toList with
    | [e] => some (match textOfCell? a, textOfCell? pattern with
      | some a, some pattern => ofBool (isLike e pattern a)
      | _, _ => .null)
    | _ => none
  | _ => none

end Values

section Rows

/-- A row of a table as a statement sees it: what it goes by, and its columns. A row of a full-text
index has the words under which it is found. -/
structure Row where
  called : Name
  cells : List (Name × Cell)
  words : List String
  deriving DecidableEq, Repr

/-- The rows at hand, those of the innermost statement first. -/
abbrev Scope := List Row

def Scope.cell? (scope : Scope) (table : Option Name) (column : Name) : Option Cell :=
  scope.findSome? fun r => if table.all (· = r.called) then r.cells.lookup column else none

/-- The words of the row of an index. -/
def Scope.words? (scope : Scope) (index : Name) : Option (List String) :=
  (scope.find? fun r => r.called = index).map Row.words

end Rows

end Newsfeed.Sql

namespace Newsfeed

open Newsfeed.Sql

def Article.row (called : Name) (a : Article) : Row :=
  ⟨called, [("id".toList, .int a.id), ("guid".toList, .text a.guid),
    ("title".toList, .text a.title), ("link".toList, Cell.ofText? a.link),
    ("content".toList, .text a.content), ("content_hash".toList, .text a.contentHash),
    ("author".toList, Cell.ofText? a.author), ("score".toList, .int a.score),
    ("date_entered".toList, .text a.dateEntered), ("updated".toList, .text a.updated)], []⟩

def Copy.row (called : Name) (c : Copy) : Row :=
  ⟨called, [("int_id".toList, .int c.id), ("ref_id".toList, .int c.article),
    ("owner_uid".toList, .int c.owner), ("feed_id".toList, Cell.ofInt? c.feed),
    ("unread".toList, ofBool c.unread), ("marked".toList, ofBool c.marked),
    ("published".toList, ofBool c.published), ("note".toList, Cell.ofText? c.note),
    ("last_read".toList, Cell.ofText? c.lastRead),
    ("last_marked".toList, Cell.ofText? c.lastMarked),
    ("last_published".toList, Cell.ofText? c.lastPublished),
    ("label_cache".toList, .text c.labelCache), ("tag_cache".toList, .text c.tagCache)], []⟩

/-- The row of a feed, or the one in place of it, in which all columns are null. -/
def Feed.row (called : Name) (f : Option Feed) : Row :=
  ⟨called, [("id".toList, Cell.ofInt? (f.map Feed.id)),
    ("owner_uid".toList, Cell.ofInt? (f.map Feed.owner)),
    ("url".toList, Cell.ofText? (f.map Feed.url)),
    ("title".toList, Cell.ofText? (f.bind Feed.title)),
    ("site_url".toList, Cell.ofText? (f.bind Feed.siteUrl)),
    ("cat_id".toList, Cell.ofInt? (f.bind Feed.category)),
    ("last_error".toList, Cell.ofText? (f.bind Feed.lastError)),
    ("last_updated".toList, Cell.ofText? (f.bind Feed.lastUpdated))], []⟩

/-- A row of a listing as its statement sees it. -/
def Joined.scope (r : Joined) : Scope :=
  [r.article.row "e".toList, r.copy.row "ue".toList, Feed.row "f".toList r.feed]

def Labeling.row (called : Name) (l : Labeling) : Row :=
  ⟨called, [("label_id".toList, .int l.label), ("article_id".toList, .int l.article)], []⟩

def Label.row (called : Name) (l : Label) : Row :=
  ⟨called, [("id".toList, .int l.id), ("owner_uid".toList, .int l.owner),
    ("caption".toList, .text l.caption)], []⟩

def Tag.row (called : Name) (t : Tag) : Row :=
  ⟨called, [("owner_uid".toList, .int t.owner), ("post_int_id".toList, .int t.copy),
    ("tag_name".toList, .text t.name)], []⟩

def IndexRow.row (called : Name) (r : IndexRow) : Row :=
  ⟨called, [("rowid".toList, .int r.article)], r.words⟩

namespace Store

/-- The rows of the tables that listings are made of and of those that conditions ask about. -/
def rowsOf? (s : Store) (t : Source) : Option (List Row) :=
  if t.table = "entries".toList then some (s.articles.map (Article.row t.called))
  else if t.table = "user_entries".toList then some (s.copies.map (Copy.row t.called))
  else if t.table = "feeds".toList then some (s.feeds.map fun f => Feed.row t.called (some f))
  else if t.table = "user_labels".toList then some (s.labelings.map (Labeling.row t.called))
  else if t.table = "labels".toList then some (s.labels.map (Label.row t.called))
  else if t.table = "tags".toList then some (s.tags.map (Tag.row t.called))
  else if t.table = "entries_fts".toList then some (s.index.map (IndexRow.row t.called))
  else none

/-- Each row of the first table with each of the next, and so on. -/
def product? (s : Store) : List Source → Option (List Scope)
  | [] => some [[]]
  | t :: ts => (s.rowsOf? t).bind fun rows => (s.product? ts).map fun scopes =>
    rows.flatMap fun r => scopes.map (r :: ·)

end Store

namespace Sql

/-- What two conditions are together. -/
def joinCells (op : Truth → Truth → Truth) (c d : Cell) : Option Cell :=
  (truth? c).bind fun t => (truth? d).map fun u => ofTruth (op t u)

/-- Asks a row of an index, whether its words are those that a text asks for. -/
def answerCell (words : List String) : Cell → Option Cell
  | .text q => (Indexing.read? q).map fun e => ofBool (e.holds words)
  | _ => none

/-- What a row adds to the results, which is nothing unless the condition holds. -/
def resultOf (condition result : Option Cell) : Option (Option Cell) :=
  (condition.bind truth?).bind fun t => if t.holds then result.map some else some none

namespace Expr

mutual

def value? (s : Store) (scope : Scope) : Expr → Option Cell
  | value c => some c
  | column table name => scope.cell? table name
  | call function args => (values? s scope args).bind (callFunction function)
  | no a => ((value? s scope a).bind truth?).map fun t => ofTruth t.not
  | both a b => (value? s scope a).bind fun c => (value? s scope b).bind (joinCells Truth.and c)
  | either a b => (value? s scope a).bind fun c => (value? s scope b).bind (joinCells Truth.or c)
  | compare op a b => (value? s scope a).bind fun c =>
    (value? s scope b).map fun d => ofTruth (op.truth c d)
  | same a b => (value? s scope a).bind fun c => (value? s scope b).map fun d => ofBool (isSame c d)
  | like a pattern escape => (value? s scope a).bind fun c =>
    (value? s scope pattern).bind fun p => (value? s scope escape).bind fun e => likeCells c p e
  | oneOf a values => (value? s scope a).bind fun c =>
    (values? s scope values).map fun vs => ofTruth (isAmong c vs)
  | among a result tables condition => (value? s scope a).bind fun c =>
    (s.product? tables).bind fun rows =>
      (rows.mapM fun r => resultOf (value? s (r ++ scope) condition)
        (value? s (r ++ scope) result)).map fun found => ofTruth (isAmong c (found.filterMap id))
  | answers index question => (scope.words? index).bind fun words =>
    (value? s scope question).bind (answerCell words)

def values? (s : Store) (scope : Scope) : List Expr → Option (List Cell)
  | [] => some []
  | e :: es => (value? s scope e).bind fun c => (values? s scope es).map (c :: ·)

end

end Expr

theorem truth_ofTruth (t : Truth) : truth? (ofTruth t) = some t := by
  rcases t with _ | _ | _ <;> rfl

/-- The expression is as true as that. -/
def Expr.Means (s : Store) (scope : Scope) (e : Expr) (t : Truth) : Prop :=
  e.value? s scope = some (ofTruth t)

section Logic

variable {s : Store} {scope : Scope} {a b : Expr} {t u : Truth}

theorem means_no (h : a.Means s scope t) : (Expr.no a).Means s scope t.not := by
  rw [Expr.Means, Expr.value?, h, Option.bind_some, truth_ofTruth, Option.map_some]

theorem means_both (ha : a.Means s scope t) (hb : b.Means s scope u) :
    (Expr.both a b).Means s scope (t.and u) := by
  rw [Expr.Means, Expr.value?, ha, hb, Option.bind_some, Option.bind_some, joinCells,
    truth_ofTruth, truth_ofTruth, Option.bind_some, Option.map_some]

theorem means_either (ha : a.Means s scope t) (hb : b.Means s scope u) :
    (Expr.either a b).Means s scope (t.or u) := by
  rw [Expr.Means, Expr.value?, ha, hb, Option.bind_some, Option.bind_some, joinCells,
    truth_ofTruth, truth_ofTruth, Option.bind_some, Option.map_some]

end Logic

end Sql

end Newsfeed
