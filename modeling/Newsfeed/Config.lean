import Newsfeed.Preferences

namespace Newsfeed

/-- The limits and windows that apply to every request. -/
structure Limits where
  /-- Page size of a request that asks for none. -/
  defaultLimit : Int
  maxLimit : Int
  timeoutSeconds : Nat
  /-- How far back the pagination guard looks for arrivals. -/
  guardMinutes : Int
  recentlyReadHours : Int
  categoryDepth : Nat
  deriving DecidableEq, Repr

namespace Limits

def standard : Limits := ⟨30, 200, 10, 60, 24, 64⟩

def timeoutMillis (l : Limits) : Nat := l.timeoutSeconds * 1000

/-- The page size for a requested one. Nothing or less asks for the default; no page is smaller
than one row or larger than the maximum, which is at least one. -/
def clamp (l : Limits) (limit : Int) : Int :=
  let top := max l.maxLimit 1
  if limit ≤ 0 then min (max l.defaultLimit 1) top else min limit top

end Limits

structure Config where
  databasePath : Option String
  limits : Limits
  /-- Preferences of an owner who has stored none. -/
  defaults : Preferences
  deriving DecidableEq, Repr

def Config.standard : Config := ⟨none, .standard, .standard⟩

end Newsfeed
