import Newsfeed.Listing.Guard

/-!
Listings: what a request is answered with.
-/

namespace Newsfeed

namespace Engine

/-- A plan before its rows are read. -/
def outline (p : Plan) : Answer :=
  { Answer.bare p.heading p.selection.isVirtual with
    highlights := (p.search.map CompiledSearch.highlights).getD []
    queryError := p.search.bind CompiledSearch.error }

/-- Reads the rows of a plan. A filter that nothing passes is not run. -/
def fetch (e : Engine) (ctx : Context) (query : ListingQuery) (answer : Answer) :
    Except Failure Answer :=
  if query.filter.isNever then .ok answer
  else if ctx.token.tripped then .error .cancelled
  else ((e.reads ctx).headlines query).map fun rows => { answer with rows }

def answerPlan (e : Engine) (ctx : Context) (request : Request) (p : Plan) :
    Except Failure Answer := do
  let answer := outline p
  if p.isGuarded request then
    let outcome ← e.guard ctx p.query request.page e.limits.guardMinutes
    let answer := { answer with firstId := outcome.firstId }
    if outcome.invalidated then return { answer with invalidated := true }
    else e.fetch ctx p.query answer
  else e.fetch ctx p.query answer

/-- The answer to a request. The feeds of plugins are listed by them. -/
def headlines (e : Engine) (ctx : Context) (request : Request) : Except Failure Answer :=
  let unresolved : Failure := .unresolved request.feed.text
  let selection? := Selection.ofAddress? request.feed request.isCategory request.includeChildren
    ctx.prefs
  if ctx.token.tripped then .error .cancelled
  else match selection? with
    | none => .error unresolved
    | some s => match s.pluginFeed? with
      | some id =>
        (e.plugins.feedHeadlines id request ctx).bind fun answer? =>
          match answer? with
          | some answer => .ok answer
          | none => .error unresolved
      | none => (e.plan ctx request s).bind (e.answerPlan ctx request)

end Engine

end Newsfeed
