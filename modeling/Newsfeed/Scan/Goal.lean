import Newsfeed.Order
import Newsfeed.Scan.Condition

/-!
What rows are looked for, and what for. A row is made of an article, a copy of it and the feed of
the copy, which belong together by the number of the article and that of the feed.
-/

namespace Newsfeed.Scan

/-- What rows are read for. -/
inductive Purpose where
  /-- A page of them in an order, a repeated row once where that is asked for. -/
  | page (order : SortOrder) (limit : Option Nat) (offset : Nat) (distinct : Bool)
  /-- The number of the first in an order. -/
  | first (order : SortOrder)
  | count
  /-- To see whether they can be read. -/
  | trial
  deriving DecidableEq, Repr

namespace Purpose

def order? : Purpose → Option SortOrder
  | page order _ _ _ => some order
  | first order => some order
  | _ => none

def limit? : Purpose → Option Nat
  | page _ limit _ _ => limit
  | first _ => some 1
  | _ => none

/-- Repeated rows are left out. -/
def isDistinct : Purpose → Bool
  | page _ _ _ distinct => distinct
  | count => true
  | _ => false

/-- The table whose numbers rows are sorted by in the end. -/
def sorted? : Purpose → Option Table
  | page _ _ _ _ => some .articles
  | first _ => some .articles
  | count => some .copies
  | trial => none

/-- How many rows are enough, if they are met in order. -/
def quota? : Purpose → Option Nat
  | page _ limit offset _ => limit.map (· + offset)
  | first _ => some 1
  | count => none
  | trial => some 1

end Purpose

/-- More of the articles is needed than number and date, apart from the filter. -/
def Purpose.needsArticles : Purpose → Bool
  | page _ _ _ _ => true
  | first order => order.keys.any fun k =>
    k.column = .score || k.column = .updated || k.column = .title
  | _ => false

structure Goal where
  /-- The conditions that rows have to pass one and all. -/
  terms : List Condition
  /-- How many of them, the last ones, are those of a goal of which this is a part. -/
  outer : Nat
  /-- It is known which article it is. -/
  knowsArticle : Bool
  /-- It is known which feed it is. -/
  knowsFeed : Bool
  /-- Copies without a feed are kept. -/
  keepsArchived : Bool
  /-- Number and date are all that is needed of the articles. -/
  readsDatesOnly : Bool
  purpose : Purpose
  deriving DecidableEq, Repr

namespace Goal

/-- Copies without a feed are looked for only if the filter can let them pass. -/
def ofFilter (filter : Condition) (allowArchived : Bool) (purpose : Purpose) : Goal :=
  let terms := withValues filter.requirements
  let keepsArchived := allowArchived && !filter.dropsArchived
  { terms
    outer := 0
    knowsArticle := (required? .entryId terms).isSome
    knowsFeed := !keepsArchived && (required? .feedId terms).isSome
    keepsArchived
    readsDatesOnly := !purpose.needsArticles &&
      (filter.articleColumns.all fun c => c = .entryId || c = .dateEntered)
    purpose }

/-- The place of the requirement that a column equals a value. -/
def placeOf? (g : Goal) (c : Column) : Option Nat := (required? c g.terms).map Prod.fst

/-- The tables that each requirement is about. -/
def termTables (g : Goal) : List (List Table) := g.terms.map Condition.tables

/-- The tables that are tied together by the article; one alone if it is known which. -/
def articleTie (g : Goal) : List Table :=
  if g.knowsArticle then [.copies] else [.articles, .copies]

/-- The tables that are tied together by the feed. -/
def feedTie (g : Goal) : List Table := if g.knowsFeed then [.feeds] else [.copies, .feeds]

/-- A part of a condition as a goal within this one. -/
def within (g : Goal) (part : Condition) : Goal :=
  { g with terms := part.requirements ++ g.terms, outer := g.terms.length }

end Goal

end Newsfeed.Scan
