import Newsfeed.Text.Lowercase
import Newsfeed.Time.Zone

namespace Newsfeed

open Newsfeed.Text Newsfeed.Time

/-- What an owner can choose about listings. -/
structure Preferences where
  /-- Hours for which an unread article stays fresh. -/
  freshHours : Int
  groupByFeed : Bool
  /-- Listings are not asked to drop repeated rows. -/
  noDistinct : Bool
  searchLanguage : String
  timezone : String
  deriving DecidableEq, Repr

namespace Preferences

def standard : Preferences := ⟨24, false, false, "simple", "UTC"⟩

/-- A switch is read in any case of ASCII letters. -/
def readSwitch? (s : String) : Option Bool :=
  let word := String.ofList (s.toList.map Char.toLower)
  if ["true", "1", "yes", "on"].contains word then some true
  else if ["false", "0", "no", "off"].contains word then some false
  else none

/-- Puts one stored preference on top of the others. Unknown names and values that are not valid
change nothing. -/
def set (p : Preferences) (name value : String) : Preferences :=
  let value := trim value
  match name with
  | "FRESH_ARTICLE_MAX_AGE" => match readInt64? value.toList with
    | some hours => if 0 ≤ hours then { p with freshHours := hours } else p
    | none => p
  | "VFEED_GROUP_BY_FEED" => { p with groupByFeed := (readSwitch? value).getD p.groupByFeed }
  | "HEADLINES_NO_DISTINCT" => { p with noDistinct := (readSwitch? value).getD p.noDistinct }
  | "DEFAULT_SEARCH_LANGUAGE" =>
    if value = "" then p else { p with searchLanguage := lowercase value }
  | "USER_TIMEZONE" => if (Zone.read? value).isSome then { p with timezone := value } else p
  | _ => p

/-- Puts stored preferences, as names with values, on top of the defaults. -/
def ofRows (defaults : Preferences) (rows : List (String × String)) : Preferences :=
  rows.foldl (fun p r => p.set r.1 r.2) defaults

/-- The owner's zone; UTC when its name is not understood. -/
def zone (p : Preferences) : Zone := (Zone.read? p.timezone).getD .utc

end Preferences

end Newsfeed
