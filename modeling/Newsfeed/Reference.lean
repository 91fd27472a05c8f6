import Newsfeed.Text.Decimal

/-!
What a listing is asked for. A reader addresses it by a number or a name; an address stands for at
most one reference. Numbers above zero are feeds or categories, a few at and below zero are special
feeds, and two ranges further down hold the feeds of plugins and of labels.
-/

namespace Newsfeed

open Newsfeed.Text

inductive Address where
  | id (n : Int)
  | name (s : String)
  deriving DecidableEq, Repr

namespace Address

/-- Reads an address from text: a number where the trimmed text is one, else a name. -/
def read (s : String) : Address :=
  match readInt64? (trimChars s.toList) with
  | some n => .id n
  | none => .name (trim s)

def isNumeric : Address → Bool
  | .id _ => true
  | .name _ => false

def text : Address → String
  | .id n => toString n
  | .name s => s

end Address

/-- The feeds that are not subscribed to but kept by the reader. -/
inductive SpecialFeed where
  | starred | published | fresh | all | archived | recentlyRead
  deriving DecidableEq, Repr

namespace SpecialFeed

def id : SpecialFeed → Int
  | archived => 0
  | starred => -1
  | published => -2
  | fresh => -3
  | all => -4
  | recentlyRead => -6

def title : SpecialFeed → String
  | starred => "Starred articles"
  | published => "Published articles"
  | fresh => "Fresh articles"
  | all => "All articles"
  | archived => "Archived articles"
  | recentlyRead => "Recently read"

end SpecialFeed

inductive Reference where
  | feed (id : Int)
  | category (id : Int)
  | uncategorized
  /-- Every labelled article. -/
  | labels
  | special (feed : SpecialFeed)
  | label (id : Int)
  | plugin (id : Int)
  | tag (name : String)
  deriving DecidableEq, Repr

namespace Reference

/-- Feed ids below this one are those of labels. -/
def labelBound : Int := -1024

/-- Feed ids below this one, down to those of labels, are those of plugins. -/
def pluginBound : Int := -128

def labelToFeed (label : Int) : Int := labelBound - 1 - label.natAbs

def feedToLabel (feed : Int) : Int := labelBound - 1 + feed.natAbs

def pluginToFeed (plugin : Int) : Int := pluginBound - 1 - plugin.natAbs

def feedToPlugin (feed : Int) : Int := pluginBound - 1 + feed.natAbs

/-- What a number stands for, in a category view or outside one. -/
def ofId? (n : Int) (isCategory : Bool) : Option Reference :=
  if 0 < n then some (if isCategory then .category n else .feed n)
  else if n = 0 then some (if isCategory then .uncategorized else .special .archived)
  else if n = -1 then some (.special .starred)
  else if n = -2 then some (if isCategory then .labels else .special .published)
  else if n = -3 then some (.special .fresh)
  else if n = -4 then some (.special .all)
  else if n = -6 then some (.special .recentlyRead)
  else if n < labelBound then some (.label (feedToLabel n))
  else if n < pluginBound ∧ !isCategory then some (.plugin (feedToPlugin n))
  else none

/-- What an address stands for. A name that spells a number is that number; any other is a tag,
unless it is blank. -/
def ofAddress? (a : Address) (isCategory : Bool) : Option Reference :=
  match a with
  | .id n => ofId? n isCategory
  | .name s => match Address.read s with
    | .id n => ofId? n isCategory
    | .name t => if t = "" then none else some (.tag t)

def isTag : Reference → Bool
  | .tag _ => true
  | _ => false

/-- The listing gathers a category. -/
def isCategoryView : Reference → Bool
  | .category _ => true
  | .uncategorized => true
  | .labels => true
  | _ => false

end Reference

end Newsfeed
