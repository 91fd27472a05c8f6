import Newsfeed.Scan.Estimate
import Newsfeed.Scan.Goal

/-!
The ways to find rows of a table: by an index, some keys of which are given by the filter or by a
row of another table. Each way has an estimate of how many rows it finds and of what that costs.
Those that are worse than another are dropped.
-/

namespace Newsfeed.Scan

inductive Key where
  | article | date | unread | feed | copy
  deriving DecidableEq, Repr

inductive Index where
  /-- By the number of the row. -/
  | number
  /-- Articles by date. -/
  | date
  /-- Copies of an owner. -/
  | ownerUnread | ownerFeed | ownerArticle
  /-- By an index for each part of the disjunction that is required at a place. -/
  | parts (place : Nat)
  deriving DecidableEq, Repr

/-- What is known of a key. -/
inductive Hold where
  | equals
  | oneOf (count : Estimate)
  | unset
  /-- Above a value, or only filled. -/
  | above (isValue : Bool)
  | below
  deriving DecidableEq, Repr

/-- Something known of a key. -/
structure Handle where
  key : Key
  hold : Hold
  /-- The table whose row says it. -/
  after : Option Table
  /-- The requirement that says it. -/
  place : Option Nat
  /-- It is known because rows of two tables belong together. -/
  isTie : Bool
  deriving DecidableEq, Repr

structure Lookup where
  table : Table
  index : Index
  /-- The tables whose rows have to be found before. -/
  needs : List Table
  handles : List Handle
  /-- How many keys of the index equal something known. -/
  equalities : Nat
  rows : Estimate
  cost : Estimate
  deriving DecidableEq, Repr

def Key.column? : Key → Option Column
  | .article => some .entryId
  | .date => some .dateEntered
  | .unread => some .unread
  | .feed => some .feedId
  | .copy => none

def Membership.key : Membership → Key
  | tag _ _ => .copy
  | _ => .article

namespace Hold

/-- How many values are looked up, one after the other. -/
def count : Hold → Estimate
  | oneOf n => n
  | _ => 0

/-- Only a key that may be unset can be asked for that. -/
def isOfUnset : Hold → Bool
  | unset => true
  | above false => true
  | _ => false

end Hold

/-! ### What the filter says of a key -/

/-- A question to another table is taken to find some twenty-five numbers. -/
def membersFound : Estimate := 46

def Comparison.hold? : Comparison → Option Hold
  | .eq => some .equals
  | .isNot => none
  | .lt => some .below
  | .le => some .below
  | .gt => some (.above true)
  | .ge => some (.above true)

def Question.hold? : Question → Option Hold
  | compare op _ => Comparison.hold? op
  | isNull => some .unset
  | notNull => none
  | isOneOf values => some (.oneOf (.ofNat values.length))
  | contains _ => none
  | startsWith _ => none

def Test.hold? (key : Key) : Test → Option Hold
  | cell c _ q => if key.column? = some c then q.hold? else none
  | member m _ => if m.key = key then some (.oneOf membersFound) else none
  | refused _ => none

namespace Condition

def hold? (key : Key) : Condition → Option Hold
  | test t => t.hold? key
  | _ => none

/-- To equal one value or another is to be one of them; and what is filled is above nothing. -/
def implied? (key : Key) (c : Condition) : Option Hold :=
  let parts := c.alternatives
  let isOfKey (part : Condition) : Bool := key.column?.any fun column =>
    (part.equated? column).isSome
  if 1 < parts.length ∧ parts.all isOfKey then some (.oneOf (.ofNat parts.length))
  else match c with
    | test (.cell column none .notNull) =>
      if key.column? = some column then some (.above false) else none
    | _ => none

end Condition

namespace Goal

/-- A handle for each requirement that says something of a key. -/
def collect (g : Goal) (key : Key) (hold? : Condition → Option Hold) : List Handle :=
  g.terms.zipIdx.filterMap fun (c, i) => (hold? c).map fun h => ⟨key, h, none, some i, false⟩

/-- What requirements say of a key outright. -/
def given (g : Goal) (key : Key) : List Handle := g.collect key (Condition.hold? key)

/-- What else can be drawn from them, the last first. -/
def implied (g : Goal) (key : Key) : List Handle := (g.collect key (Condition.implied? key)).reverse

/-- A key of one table is that of a row of another. -/
def tie (key : Key) (after : Table) : Handle := ⟨key, .equals, some after, none, true⟩

/-- A key has the value that a requirement says. -/
def settle (key : Key) (place : Option Nat) : Handle := ⟨key, .equals, none, place, true⟩

/-- What can be known of a key of a table. -/
def handles (g : Goal) : Table → Key → List Handle
  | .articles, .article =>
    g.given .article ++ (if g.knowsArticle then [] else [tie .article .copies]) ++
      g.implied .article
  | .copies, .article =>
    if g.knowsArticle then [settle .article (g.placeOf? .entryId)]
    else tie .article .articles :: (g.given .article ++ g.implied .article)
  | .copies, .feed =>
    g.given .feed ++ (if g.keepsArchived ∨ g.knowsFeed then [] else [tie .feed .feeds]) ++
      g.implied .feed
  | .feeds, _ =>
    if g.knowsFeed then [settle .feed (g.placeOf? .feedId)]
    else tie .feed .copies :: (if g.keepsArchived then [] else
      (g.given .feed ++ g.implied .feed).filter fun h => !h.hold.isOfUnset)
  | _, key => g.given key ++ g.implied key

end Goal

/-! ### Estimates -/

namespace Index

/-- The keys after the owner, each with how many rows are left when all up to it are known. -/
def keys : Index → List (Key × Estimate)
  | number => [(.article, 0)]
  | date => [(.date, 33), (.article, 0)]
  | ownerUnread => [(.unread, 32), (.copy, 0)]
  | ownerFeed => [(.feed, 32), (.copy, 0)]
  | ownerArticle => [(.article, 0), (.copy, 0)]
  | parts _ => []

/-- One index, which is kept beside the rows. -/
def isApart : Index → Bool
  | number => false
  | parts _ => false
  | _ => true

/-- The parts of a disjunction, each by its own index. -/
def isOfParts : Index → Bool
  | parts _ => true
  | _ => false

/-- What it costs to read an entry of the index. -/
def weight : Index → Estimate
  | number => 16
  | date => 10
  | _ => 8

end Index

namespace Lookup

/-- A lookup before anything is known of its keys. The rows of a table are taken to be a million,
ten of them an owner's. -/
def start (table : Table) (index : Index) (needs : List Table) : Lookup :=
  if table = .copies then ⟨table, index, needs, [], 1, 33, 0⟩
  else ⟨table, index, needs, [], 0, 200, 0⟩

def add (l : Lookup) (h : Handle) : Lookup :=
  { l with handles := l.handles ++ [h], needs := l.needs ++ h.after.toList }

/-- How many rows are left of those of a lookup within bounds: one of four for a bound, and less
where there are two, but no fewer than two for that. -/
def within (rows : Estimate) (lower upper : Option Hold) : Estimate :=
  let bound (n : Estimate) (h : Option Hold) : Estimate :=
    if h.isNone ∨ h = some (.above false) then 0 else n
  let both : Estimate := if lower.isSome ∧ upper.isSome then 20 else 0
  let least := rows - lower.toList.length - upper.toList.length
  min least (max 10 (rows - bound 20 lower - bound 20 upper - both))

/-- A requirement is met by the lookup itself. -/
def uses (l : Lookup) (place : Nat) : Bool :=
  l.handles.any fun h => !h.isTie && h.place = some place

/-- A key of the index is known, such as the owner of a copy. -/
def isExact (l : Lookup) : Bool := 0 < l.equalities

def usesTie (l : Lookup) (key : Key) : Bool := l.handles.any fun h => h.isTie && h.key = key

/-- Something about these tables can be checked once the row is found, and no earlier. -/
def canCheck (l : Lookup) (tables : List Table) : Bool :=
  tables.contains l.table && tables.all fun t => t = l.table || l.needs.contains t

/-- How many more things can be checked of the rows that are found. Of a part only its own count. -/
def checks (g : Goal) (l : Lookup) : Nat :=
  let own := g.termTables.take (g.terms.length - g.outer)
  (own.zipIdx.countP fun (tables, i) => l.canCheck tables && !l.uses i) +
    (if g.outer = 0 && l.canCheck g.articleTie && !l.usesTie .article then 1 else 0) +
    (if g.outer = 0 && l.canCheck g.feedTie && !l.usesTie .feed then 1 else 0)

/-- What it costs to find a place in an index of a million entries. -/
def descent : Estimate := 43

/-- The estimates of a lookup that is done so many times. Where the index does not hold all that is
needed, the rows are gone to as well. -/
def estimated (g : Goal) (times : Estimate) (l : Lookup) : Lookup :=
  let found := Estimate.sum descent (l.rows + l.index.weight)
  let isWhole := l.index = .number || (l.index = .date && g.readsDatesOnly)
  let cost := if isWhole then found else Estimate.sum found (l.rows + 16)
  { l with cost := cost + times, rows := l.rows + times - l.checks g }

/-- The lookups that know more keys of the index. A bound on a key ends it. -/
def extended (g : Goal) : List (Key × Estimate) → Estimate → Estimate → Lookup → List Lookup
  | [], _, _, _ => []
  | (key, after) :: keys, before, times, l =>
    (g.handles l.table key).flatMap fun h =>
      let next := l.add h
      match h.hold with
      | .below => [estimated g times { next with rows := within l.rows none (some h.hold) }]
      | .above _ =>
        let uppers := (g.handles l.table key).filter fun u => u.hold = .below
        estimated g times { next with rows := within l.rows (some h.hold) none } ::
          uppers.map fun u =>
            estimated g times
              { next.add u with rows := within l.rows (some h.hold) (some u.hold) }
      | hold =>
        let unset : Estimate := if hold = .unset then 10 else 0
        let next := { next with
          equalities := l.equalities + 1
          rows := l.rows + (after - before) + unset }
        estimated g (times + hold.count) next :: extended g keys after (times + hold.count) next

/-- The lookups by an index. The copies of an owner can be found without knowing more. -/
def all (g : Goal) (table : Table) (index : Index) (needs : List Table) : List Lookup :=
  let l := start table index needs
  (if table = .copies then [l.estimated g 0] else []) ++ l.extended g index.keys l.rows 0

/-! ### Choice -/

/-- A lookup by less, which yet does not cost more for more rows. -/
def isSimpler (p q : Lookup) : Bool :=
  !(decide (q.cost < p.cost) && decide (q.rows < p.rows)) &&
    ((p.index = q.index && decide (p.equalities < q.equalities)) ||
      (decide (p.handles.length < q.handles.length) && p.handles.all q.handles.contains))

/-- To know more is taken to find fewer rows, and not at a higher cost. -/
def adjusted (l p : Lookup) : Lookup :=
  if p.table ≠ l.table ∨ !p.index.isApart ∨ !l.index.isApart then l
  else if p.isSimpler l then { l with cost := min p.cost l.cost, rows := min (p.rows - 1) l.rows }
  else if l.isSimpler p then { l with cost := max p.cost l.cost, rows := max (p.rows + 1) l.rows }
  else l

/-- The order in which an index gives the rows is of use. -/
def isOfUse (g : Goal) (l : Lookup) : Bool :=
  g.purpose.sorted? = some l.table && !l.index.isOfParts

/-- One lookup can stand for the other. Where order is of use, one by another index cannot. -/
def isRival (g : Goal) (p q : Lookup) : Bool :=
  p.table = q.table && (p.index = q.index || !(p.isOfUse g || q.isOfUse g))

/-- A lookup that is no worse than another, and can be done whenever the other can. -/
def isNoWorse (g : Goal) (p q : Lookup) : Bool :=
  isRival g p q && p.needs.all q.needs.contains &&
    decide (p.cost ≤ q.cost) && decide (p.rows ≤ q.rows)

/-- A lookup takes the place of those that are no better. -/
def insert (g : Goal) (ls : List Lookup) (l : Lookup) : List Lookup :=
  let l := ls.foldl adjusted l
  if ls.any fun p => isNoWorse g p l then ls
  else (ls.filter fun p => !isNoWorse g l p) ++ [l]

/-- The lookups by single indexes of a table. -/
def ofTable (g : Goal) (needs : List Table) : Table → List Lookup
  | .articles => all g .articles .number needs ++ all g .articles .date needs
  | .copies => all g .copies .ownerUnread needs ++ all g .copies .ownerFeed needs ++
    all g .copies .ownerArticle needs
  | .feeds => all g .feeds .number needs

end Lookup

end Newsfeed.Scan
