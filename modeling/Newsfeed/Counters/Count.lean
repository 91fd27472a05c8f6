import Newsfeed.Listing.Filter
import Newsfeed.Plugins

/-!
The numbers beside the entries of the sidebar, one at a time.
-/

namespace Newsfeed

/-- What requests are answered from. -/
structure Engine where
  store : Store
  plugins : Plugins
  limits : Limits

namespace Engine

/-- The store as the request reads it. -/
def reads (e : Engine) (ctx : Context) : GuardedStore := e.store.under ctx.token

def countMatching (e : Engine) (ctx : Context) (allowArchived : Bool) (filter : Predicate) :
    Except Failure Int :=
  (e.reads ctx).count ctx.owner allowArchived filter

def forest (e : Engine) (ctx : Context) : Except Failure CategoryForest :=
  ((e.reads ctx).categories ctx.owner).map fun cs => .ofCategories cs e.limits.categoryDepth

/-- How many rows a selection has, where asked for only the unread ones. Categories and labels
are always counted by unread rows; special feeds asked for as categories and the recently read
articles have no number. -/
def countSelection (e : Engine) (ctx : Context) (s : Selection) (isCategory unreadOnly : Bool) :
    Except Failure Int :=
  if ctx.token.tripped then .error .cancelled
  else
    let own := s.filter ctx e.limits none
    let unread := Predicate.all [own, isUnread]
    match s.kind with
    | .plugin id => (e.plugins.feedUnread id ctx).map fun n? => n?.getD 0
    | .special feed =>
      if isCategory ∨ feed = .recentlyRead then .ok 0
      else e.countMatching ctx true (if unreadOnly then unread else own)
    | .category id =>
      e.countMatching ctx false
        (Predicate.all [.compare .categoryId .eq (.int id), isUnread])
    | .labels => e.countMatching ctx true unread
    | .label _ => e.countMatching ctx true unread
    | .uncategorized => e.countMatching ctx false unread
    | _ => e.countMatching ctx true (if unreadOnly then unread else own)

/-- The number beside a reference. -/
def count (e : Engine) (ctx : Context) (a : Address) (isCategory unreadOnly : Bool) :
    Except Failure Int :=
  match Selection.ofAddress? a isCategory false ctx.prefs with
  | none => .error (.unresolved a.text)
  | some s => e.countSelection ctx s isCategory unreadOnly

/-- The rows of a category, 0 being none, and of those below it where asked for. -/
def categoryFilter (e : Engine) (ctx : Context) (category : Int) (includeChildren : Bool) :
    Except Failure Predicate :=
  if category = 0 then .ok isUncategorized
  else if includeChildren then (e.forest ctx).map fun f => inBranch f category
  else .ok (.compare .categoryId .eq (.int category))

def countCategory (e : Engine) (ctx : Context) (category : Int) (includeChildren : Bool)
    (state : Predicate) : Except Failure Int :=
  if ctx.token.tripped then .error .cancelled
  else (e.categoryFilter ctx category includeChildren).bind fun scope =>
    e.countMatching ctx false (Predicate.all [scope, state])

def categoryUnread (e : Engine) (ctx : Context) (category : Int) (includeChildren : Bool) :
    Except Failure Int :=
  e.countCategory ctx category includeChildren isUnread

def categoryMarked (e : Engine) (ctx : Context) (category : Int) : Except Failure Int :=
  e.countCategory ctx category false (.compare .marked .eq (.bool true))

end Engine

end Newsfeed
