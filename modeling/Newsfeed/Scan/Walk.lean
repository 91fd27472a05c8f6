import Newsfeed.Scan.Answer
import Newsfeed.Scan.Route

/-!
Rows are put together table by table, along a route. Each requirement is looked at as soon as the
rows that it is about are there, so it depends on the route whether a fault is met.
-/

namespace Newsfeed.Scan

/-- A way to the rows of a level. -/
structure Part where
  index : Index
  /-- What is looked at before any of the rows. -/
  first : List Condition
  /-- What the index is asked for. -/
  known : List Condition
  /-- What is looked at when a row has been found. -/
  checks : List Condition
  /-- Only copies of the feed at hand are found. -/
  ofFeed : Bool
  deriving Repr

/-- One table of a route. -/
structure Level where
  table : Table
  /-- The ways to its rows, which are gone one after the other. -/
  parts : List Part
  /-- What is looked at when a row has been found for the first time. -/
  checks : List Condition
  /-- The last row is met first. -/
  fromLast : Bool
  deriving Repr

/-- The columns that an index holds besides the numbers of rows. -/
def Index.columns : Index → List Column
  | .number => []
  | .date => [.dateEntered, .entryId]
  | .ownerUnread => [.unread]
  | .ownerFeed => [.feedId]
  | .ownerArticle => []
  | .parts _ => []

/-- All that the condition asks of a table is held by its index. -/
def Condition.isIn (i : Index) (t : Table) (c : Condition) : Bool :=
  i.isApart && c.tests.all fun test =>
    match test with
    | .cell column _ _ => tableOf column ≠ t || i.columns.contains column
    | _ => true

/-- The condition lists the numbers that an article may have. -/
def Condition.namesArticles (c : Condition) : Bool :=
  c.tables ≠ [] && match c.hold? .article with
    | some .equals => true
    | some (.oneOf _) => true
    | _ => false

/-- The condition can be looked at before any row. -/
def Condition.isFree (c : Condition) : Bool := c.tables.isEmpty && !c.asksTable

namespace Goal

/-- The rows of a route are met in the order that is asked for, the first or the last first. -/
def isInOrder (g : Goal) (r : Route) : Bool :=
  g.purpose.order?.isSome && r.arranged = some g.purpose.criteria.length

/-- The places of the requirements that the index of a step settles. -/
def settledBy (g : Goal) (l : Lookup) : List Nat :=
  (List.range g.terms.length).filter fun i =>
    l.uses i && (g.terms[i]?.any fun c => c.tables.all (· = l.table))

/-- What is looked at in a row of a lookup, in order, when these tables are at hand and these
requirements are open. What an index holds is looked at first. Which articles are wanted is looked
at with the copies already. -/
def checksOf (g : Goal) (read : List Table) (l : Lookup) (pending : List Condition) :
    List Condition :=
  let (ready, waiting) := pending.partition fun c => c.tables.all read.contains
  let isOuter := l.table = .feeds && g.keepsArchived
  let (early, late) := ready.partition fun c => !isOuter && c.isIn l.index l.table
  let again := if l.table = .copies ∧ !read.contains .articles then
      (waiting.find? Condition.namesArticles).toList
    else []
  early ++ late ++ again

/-- What a lookup asks its index for. -/
def knownBy (g : Goal) (l : Lookup) : List Condition :=
  l.handles.filterMap fun h => (h.place.bind fun i => g.terms[i]?).map Condition.ofColumns

/-- The best of the lookups that need no more than these tables. -/
def bestLookup? (g : Goal) (read : List Table) (table : Table) : Option Lookup :=
  let ls := ((Lookup.ofTable g read table).foldl (Lookup.insert g) []).filter fun l =>
    l.needs.all read.contains
  ls.foldl (fun best l => match best with
    | none => some l
    | some b => if l.cost < b.cost ∨ (l.cost = b.cost ∧ l.rows < b.rows) then some l else some b)
    none

/-- The requirement goes along with each part of another. -/
def isCarried (read : List Table) (c : Condition) : Bool :=
  let isOfIndex := match c with
    | .test (.cell _ _ q) => q.isOfIndex
    | .either _ _ => true
    | _ => false
  isOfIndex && !c.asksTable && c.tables.any fun t => !read.contains t

/-- The way to the rows of a part of a disjunction. -/
def partOf (g : Goal) (read : List Table) (table : Table) (place : Nat) (part : Condition) :
    Option Part :=
  let others := (g.terms.eraseIdx place).filter (isCarried read)
  let sub : Goal :=
    { g with terms := part.requirements ++ others, outer := 0, purpose := .trial }
  (sub.bestLookup? read table).map fun l =>
    let isFirst (c : Condition) : Bool := c.tables.all read.contains && !c.asksTable
    let settled := sub.settledBy l
    let pending := (sub.terms.zipIdx.filter fun p =>
      !isFirst p.1 && !settled.contains p.2).map Prod.fst
    ⟨l.index, sub.terms.filter isFirst, sub.knownBy l,
      sub.checksOf (table :: read) l pending, l.usesTie .feed⟩

/-- The ways to the rows of a step. -/
def partsOf (g : Goal) (read : List Table) (l : Lookup) : List Part :=
  match l.index with
  | .parts place => match g.terms[place]? with
    | some c => c.alternatives.filterMap (g.partOf read l.table place)
    | none => []
  | i => [⟨i, [], g.knownBy l, [], l.usesTie .feed⟩]

/-- The levels of some steps, when these tables have been read and these requirements are open. -/
def levelsFrom (g : Goal) (inOrder : Bool) :
    List Table → List Condition → List Lookup → List Level
  | _, _, [] => []
  | read, pending, l :: ls =>
    let atHand := l.table :: read
    ⟨l.table, g.partsOf read l, g.checksOf atHand l pending, inOrder && l.table = .articles⟩ ::
      levelsFrom g inOrder atHand
        (pending.filter fun c => !c.tables.all atHand.contains) ls

def levels (g : Goal) (route : Route) : List Level :=
  let settled := route.steps.flatMap g.settledBy
  let pending := (g.terms.zipIdx.filter fun p =>
    !p.1.isFree && !settled.contains p.2).map Prod.fst
  g.levelsFrom (g.isInOrder route) [] pending route.steps

end Goal

/-- The cells that rows are sorted by in an index, those with equal cells staying as they are. -/
def Index.sortCell (i : Index) (l : Look) : Cell :=
  match i with
  | .number => .null
  | .date => l.cell .dateEntered
  | .ownerUnread => l.cell .unread
  | .ownerFeed => l.cell .feedId
  | .ownerArticle => Cell.ofInt? (l.copy.map Copy.article)
  | .parts _ => .null

/-- The rows of a table with which a look can go on. Where copies without a feed are kept, they go
on without one. -/
def rowsOf (s : Store) (owner : Int) (keepsArchived ofFeed : Bool) (l : Look) :
    Table → List Look
  | .articles =>
    (s.articles.filter fun a => l.copy.all fun c => c.article = a.id).map fun a =>
      { l with article := some a }
  | .copies =>
    (s.copies.filter fun c => c.owner = owner && (l.article.all fun a => c.article = a.id) &&
      (l.feed.all fun f => !ofFeed || c.feed = some f.id)).map fun c => { l with copy := some c }
  | .feeds =>
    let found := s.feeds.filter fun f => l.copy.all fun c => c.feed = some f.id
    if found = [] ∧ keepsArchived then [l] else found.map fun f => { l with feed := some f }

/-- Rows in the order of an index, each with those that are equal in it by number. -/
def Index.sort (i : Index) (rows : List Look) : List Look :=
  rows.mergeSort fun a b => (i.sortCell a).sortOrder (i.sortCell b) != .gt

/-- What has been found: how many rows, and which of a level. The same row may be found more than
once where there is more than one way to the rows. -/
structure Finds where
  count : Nat
  seen : List Look

/-- Goes on until enough has been found. -/
def untilEnough {α : Type} (isEnough : Nat → Bool) (f : Finds → α → Except Fault Finds) :
    Finds → List α → Except Fault Finds
  | n, [] => .ok n
  | n, a :: as =>
    (f n a).bind fun n => if isEnough n.count then .ok n else untilEnough isEnough f n as

/-- Goes through the levels, one inside the other, and counts the rows that pass besides those
before, until there are enough. -/
def walk (s : Store) (owner : Int) (keepsArchived : Bool) (isEnough : Nat → Bool) :
    List Level → Nat → Look → Except Fault Nat
  | [], n, _ => .ok (n + 1)
  | level :: levels, n, look =>
    let passes (cs : List Condition) (l : Look) := Condition.allHold (Test.ask s l) cs
    let isRepeated (finds : Finds) (l : Look) : Bool :=
      1 < level.parts.length && finds.seen.contains l
    let goOn (part : Part) (finds : Finds) (l : Look) : Except Fault Finds :=
      (passes (part.known ++ part.checks) l).bind fun isOfPart =>
        if !isOfPart || isRepeated finds l then .ok finds
        else (passes level.checks l).bind fun isFound =>
          if isFound && l.isWhole then
            (walk s owner keepsArchived isEnough levels finds.count l).map fun n =>
              ⟨n, l :: finds.seen⟩
          else .ok ⟨finds.count, l :: finds.seen⟩
    let goThrough (finds : Finds) (part : Part) : Except Fault Finds :=
      (passes part.first look).bind fun isOpen =>
        if !isOpen then .ok finds
        else match (part.known.flatMap Condition.tests).findSome? Test.fault? with
          | some e => .error e
          | none =>
            let rows := part.index.sort
              (rowsOf s owner keepsArchived part.ofFeed look level.table)
            untilEnough isEnough (goOn part) finds (if level.fromLast then rows.reverse else rows)
    (untilEnough isEnough goThrough ⟨n, []⟩ level.parts).map Finds.count

/-- Nothing is in the table. -/
def isBare (s : Store) : Table → Bool
  | .articles => s.articles.isEmpty
  | .copies => s.copies.isEmpty
  | .feeds => s.feeds.isEmpty

/-- Looks for rows, and stops at the fault of one that it meets. What needs no row is looked at
first, and then whether there can be any. Rows that are met in order are enough when as many as
asked for have been found, the greatest number first. -/
def Goal.run (g : Goal) (s : Store) (owner : Int) : Except Fault Unit :=
  let free := g.terms.filter Condition.isFree
  (Condition.allHold (Test.ask s .empty) free).bind fun passes =>
    let route := g.route
    let levels := g.levels route
    let isEmpty := (levels.drop 2).any fun level =>
      !(level.table = .feeds && g.keepsArchived) && isBare s level.table
    let quota := if g.isInOrder route ∨ g.purpose = .trial then g.purpose.quota? else none
    let isEnough (n : Nat) : Bool := quota.any fun q => q ≤ n
    if passes && !isEmpty then
      (walk s owner g.keepsArchived isEnough levels 0 .empty).map fun _ => ()
    else .ok ()

end Newsfeed.Scan
