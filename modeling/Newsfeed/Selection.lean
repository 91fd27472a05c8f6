import Newsfeed.Order
import Newsfeed.Preferences
import Newsfeed.Reference

/-!
What a reference selects and in what order it is listed.
-/

namespace Newsfeed

structure Selection where
  kind : Reference
  /-- The reference was asked for as a category. -/
  isCategory : Bool
  /-- Categories below the selected one are part of it. -/
  includeChildren : Bool
  /-- Rows whose feed is gone belong to it. -/
  allowArchived : Bool
  order : Option SortOrder
  neverGrouped : Bool
  /-- Its rows come from more than one feed. -/
  isVirtual : Bool
  /-- For how many hours an article is fresh. -/
  freshHours : Option Int
  deriving DecidableEq, Repr

namespace Selection

/-- A selection from several live feeds in the usual order. -/
def plain (kind : Reference) (isCategory : Bool) : Selection :=
  ⟨kind, isCategory, false, false, none, false, true, none⟩

def ofReference (kind : Reference) (isCategory includeChildren : Bool) (prefs : Preferences) :
    Selection :=
  let s := plain kind isCategory
  match kind with
  | .feed _ => { s with isVirtual := false }
  | .plugin _ => { s with isVirtual := false }
  | .category _ => { s with includeChildren := includeChildren }
  | .uncategorized => s
  | .labels => s
  | .label _ => { s with allowArchived := true }
  | .tag _ => { s with allowArchived := true }
  | .special .archived => { s with allowArchived := true, isVirtual := false }
  | .special .starred => { s with allowArchived := true, order := some (.lastFirst .lastMarked) }
  | .special .published =>
    { s with allowArchived := true, order := some (.lastFirst .lastPublished) }
  | .special .fresh => { s with freshHours := some prefs.freshHours }
  | .special .all => { s with allowArchived := true }
  | .special .recentlyRead =>
    { s with allowArchived := true, neverGrouped := true, order := some (.falling [.lastRead]) }

/-- What an address selects, if it stands for anything. -/
def ofAddress? (a : Address) (isCategory includeChildren : Bool) (prefs : Preferences) :
    Option Selection :=
  (Reference.ofAddress? a isCategory).map fun kind =>
    ofReference kind isCategory includeChildren prefs

def pluginFeed? (s : Selection) : Option Int :=
  match s.kind with
  | .plugin id => some id
  | _ => none

/-- The special feed, unless it was asked for as a category. -/
def specialFeed? (s : Selection) : Option SpecialFeed :=
  match s.kind with
  | .special f => if s.isCategory then none else some f
  | _ => none

/-- The keys that gather the rows of a selection by week and feed. The feeds of old rows are not
gathered at all, and those in which rows stand by what was done to them not by week. -/
def groupKeys (s : Selection) (weeks : Direction) : List SortKey :=
  match s.specialFeed? with
  | some .recentlyRead => []
  | some .archived => []
  | some .published => [⟨.feedTitle, .asc⟩]
  | some .starred => [⟨.feedTitle, .asc⟩]
  | some .fresh => [⟨.feedTitle, .asc⟩]
  | _ => [⟨.yearWeek, weeks⟩, ⟨.feedTitle, .asc⟩]

/-- The order before rows are gathered: one that a plugin gives for the name, the one that the name
stands for, that of the selection, or the usual one. -/
def baseOrder (s : Selection) (orderBy : String) (override : Option SortOrder) : SortOrder :=
  let o := ((override.or (SortOrder.ofName? orderBy)).or s.order).getD .standard
  { o with ungrouped := o.ungrouped || s.neverGrouped }

/-- The order of a listing. Where the owner wants it and the rows come from several feeds, they are
gathered by feed within each week, the weeks from old to new if the rows are. -/
def orderFor (s : Selection) (orderBy : String) (prefs : Preferences)
    (override : Option SortOrder) : SortOrder :=
  let o := s.baseOrder orderBy override
  if prefs.groupByFeed && s.isVirtual && !o.ungrouped then
    let weeks : Direction := if Text.trim orderBy = "date_reverse" then .asc else .desc
    { o with keys := s.groupKeys weeks ++ o.keys }
  else o

end Selection

end Newsfeed
