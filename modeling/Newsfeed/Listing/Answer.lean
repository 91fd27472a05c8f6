import Newsfeed.Store.Guarded

namespace Newsfeed

/-- What is shown above a listing. -/
structure Heading where
  title : String
  siteUrl : Option String
  lastError : Option String
  lastUpdated : Option Time.Instant
  deriving DecidableEq, Repr

def Heading.titled (title : String) : Heading := ⟨title, none, none, none⟩

/-- A listing and what is shown around it. -/
structure Answer where
  rows : List Headline
  heading : Heading
  highlights : List String
  /-- The first row among recent arrivals, if the guard looked for it. -/
  firstId : Option Int
  isVirtual : Bool
  /-- Why the search could not be run as written. -/
  queryError : Option String
  /-- The reader's page is out of date; its rows were not read. -/
  invalidated : Bool
  deriving DecidableEq, Repr

/-- An answer without rows. -/
def Answer.bare (heading : Heading) (isVirtual : Bool) : Answer :=
  ⟨[], heading, [], none, isVirtual, none, false⟩

end Newsfeed
