import Newsfeed.Counters.Snapshot
import Newsfeed.Listing.Headlines
import Newsfeed.Machine.Reference

/-!
Requests on a machine. Nothing is listed or counted if the program ends while the reference is made
out.
-/

namespace Newsfeed.Machine

/-- The page size for a requested one. -/
def pageLimit (l : Limits) (limit : Int) : Except Abort Int :=
  (fit (max l.maxLimit 1)).bind fun top =>
    if limit ≤ 0 then clampTo 1 top l.defaultLimit else fit (min limit top)

/-- The first row of a page for a requested one. -/
def pageOffset (offset : Int) : Except Abort Int := fit (max offset 0)

/-- The answer to a request. The reference is looked at once it is clear that the request has not
been told to stop. -/
def headlines (e : Engine) (ctx : Context) (request : Request) :
    Except Abort (Except Failure Answer) :=
  if ctx.token.tripped then .ok (.error .cancelled)
  else (referenceOf request.feed request.isCategory).map fun _ => e.headlines ctx request

/-- The number beside a reference, which is looked at first. -/
def count (e : Engine) (ctx : Context) (a : Address) (isCategory unreadOnly : Bool) :
    Except Abort (Except Failure Int) :=
  (referenceOf a isCategory).map fun _ => e.count ctx a isCategory unreadOnly

end Newsfeed.Machine
