import Newsfeed.Machine.Word
import Newsfeed.Selection

/-!
References on a machine. A virtual feed is found on the number line by counting down from a bound,
and the count is what it is known by: labels from one bound, the feeds of plugins from another.
-/

namespace Newsfeed.Machine

open Newsfeed.Text Newsfeed.Reference

/-- The feed at a count down from a bound. -/
def virtualFeed (bound id : Int) : Except Abort Int :=
  (size id).bind fun s => fit (bound - 1 - s)

/-- How far a feed is down from a bound. -/
def virtualId (bound feed : Int) : Except Abort Int :=
  (size feed).bind fun s => fit (bound - 1 + s)

/-- What a number stands for, in a category view or outside one. -/
def referenceOfId (n : Int) (isCategory : Bool) : Except Abort (Option Reference) :=
  if 0 < n then .ok (some (if isCategory then .category n else .feed n))
  else if n = 0 then .ok (some (if isCategory then .uncategorized else .special .archived))
  else if n = -1 then .ok (some (.special .starred))
  else if n = -2 then .ok (some (if isCategory then .labels else .special .published))
  else if n = -3 then .ok (some (.special .fresh))
  else if n = -4 then .ok (some (.special .all))
  else if n = -6 then .ok (some (.special .recentlyRead))
  else if n < labelBound then (virtualId labelBound n).map fun l => some (.label l)
  else if n < pluginBound ∧ !isCategory then
    (virtualId pluginBound n).map fun p => some (.plugin p)
  else .ok none

/-- What an address stands for. A name that spells a number of 64 bits is that number; any other is
a tag, unless it is blank. -/
def referenceOf (a : Address) (isCategory : Bool) : Except Abort (Option Reference) :=
  match a with
  | .id n => referenceOfId n isCategory
  | .name s => match readWord? (trimChars s.toList) with
    | some n => referenceOfId n isCategory
    | none => .ok (if trim s = "" then none else some (.tag (trim s)))

def selectionOf (a : Address) (isCategory includeChildren : Bool) (prefs : Preferences) :
    Except Abort (Option Selection) :=
  (referenceOf a isCategory).map fun kind? => kind?.map fun kind =>
    Selection.ofReference kind isCategory includeChildren prefs

end Newsfeed.Machine
