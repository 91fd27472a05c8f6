import Newsfeed.Counters.Count

/-!
From a request to the listing that it asks for: the heading, the search, the filter and the order.
-/

namespace Newsfeed

structure Plan where
  selection : Selection
  query : ListingQuery
  search : Option CompiledSearch
  heading : Heading
  deriving Repr

def Feed.heading (f : Feed) : Heading :=
  ⟨f.displayTitle, f.siteUrl, f.lastError, f.lastUpdated.bind Time.Instant.ofStoredText?⟩

namespace Engine

/-- What the owner has under a number, or that it is not there. -/
def owned {α : Type} (what : String) (id : Int) (found : Except Failure (Option α)) :
    Except Failure α :=
  found.bind fun found =>
    match found with
    | some a => .ok a
    | none => .error (.unresolved (what ++ " " ++ toString id))

/-- What is shown above a selection. Feeds, categories and labels are to be the owner's. -/
def describe (e : Engine) (ctx : Context) (s : Selection) (isCategory : Bool) :
    Except Failure Heading :=
  match s.kind with
  | .feed id => (owned "feed" id ((e.reads ctx).feed? ctx.owner id)).map Feed.heading
  | .category id =>
    (owned "category" id ((e.reads ctx).category? ctx.owner id)).map fun c => .titled c.title
  | .label id =>
    (owned "label" id ((e.reads ctx).label? ctx.owner id)).map fun l => .titled l.caption
  | .uncategorized => .ok (.titled "Uncategorized")
  | .labels => .ok (.titled "Labels")
  | .special feed => .ok (.titled (if isCategory then "Special" else feed.title))
  | .tag name => .ok (.titled name)
  | .plugin id => .ok (.titled ("Plugin feed " ++ toString id))

def labelLookup (e : Engine) (ctx : Context) : Search.LabelLookup := fun caption =>
  (e.reads ctx).findLabel? ctx.owner caption

/-- The meaning of a search, by a plugin or by itself. If the store cannot run its full-text
queries, it finds nothing and says so. -/
def compileSearch (e : Engine) (ctx : Context) (text : String) (language : Option String) :
    Except Failure CompiledSearch := do
  let compiled ← match e.plugins.searchFor? text ctx with
    | some s => .ok s
    | none => Search.compile text language ctx (e.labelLookup ctx)
  if compiled.predicate.fullTextTerms.isEmpty then return compiled
  let runs ← (e.reads ctx).probe ctx.owner compiled.predicate
  return if runs then compiled else compiled.refused

/-- The adaptive view: only unread rows where the selection has any. A search and the starred
articles are always shown whole. -/
def adaptiveFilter (e : Engine) (ctx : Context) (s : Selection) (isCategory searching : Bool) :
    Except Failure Predicate :=
  if searching ∨ s.kind = .special .starred then .ok .always
  else
    let unread := match s.kind with
      | .category id =>
        if s.includeChildren then e.categoryUnread ctx id true
        else e.countSelection ctx s isCategory true
      | _ => e.countSelection ctx s isCategory true
    unread.map fun n => if 0 < n then isUnread else .always

def viewFilter (e : Engine) (ctx : Context) (s : Selection) (request : Request)
    (searching : Bool) : Except Failure Predicate :=
  match request.viewMode with
  | .adaptive => e.adaptiveFilter ctx s request.isCategory searching
  | mode => .ok (mode.filter s.kind)

/-- The search of a request, unless it is blank. -/
def searchText? (request : Request) : Option String :=
  (request.search.map Text.trim).filter (· ≠ "")

/-- A category with those below it needs the forest. -/
def forestFor (e : Engine) (ctx : Context) (s : Selection) :
    Except Failure (Option CategoryForest) :=
  match s.kind with
  | .category _ => if s.includeChildren then (e.forest ctx).map some else .ok none
  | _ => .ok none

def queryOf (e : Engine) (ctx : Context) (request : Request) (s : Selection)
    (search : Option CompiledSearch) (view own : Predicate) : ListingQuery where
  owner := ctx.owner
  allowArchived := s.allowArchived
  filter := Predicate.all
    [(search.map CompiledSearch.predicate).getD .always,
     (request.start.map fun t => Predicate.compare .dateEntered .ge (.time t)).getD .always,
     view,
     (request.sinceId.map fun id => Predicate.compare .entryId .gt (.int id)).getD .always,
     own]
  order := s.orderFor request.orderBy ctx.prefs (e.plugins.orderFor? request.orderBy)
  distinct := !ctx.prefs.noDistinct || s.kind = .labels
  includeContent := request.includeContent
  limit := some (e.limits.clamp request.page.limit)
  offset := max request.page.offset 0

def plan (e : Engine) (ctx : Context) (request : Request) (s : Selection) :
    Except Failure Plan := do
  let heading ← e.describe ctx s request.isCategory
  let search ← match searchText? request with
    | some text => (e.compileSearch ctx text request.searchLanguage).map some
    | none => .ok none
  ctx.token.check
  let forest ← e.forestFor ctx s
  let view ← e.viewFilter ctx s request search.isSome
  let title := match searchText? request with
    | some text => "Search results: " ++ text
    | none => heading.title
  let own := s.filter ctx e.limits forest
  return ⟨s, e.queryOf ctx request s search view own, search, { heading with title }⟩

end Engine

end Newsfeed
