import Newsfeed.Store.Fault

namespace Newsfeed

/-- Why a request is not answered. -/
inductive Failure where
  | store (fault : Fault)
  | cancelled
  /-- The reference addresses nothing that the owner has. -/
  | unresolved (what : String)
  /-- A plugin gave up. -/
  | other (text : String)
  deriving DecidableEq, Repr

def Failure.message : Failure → String
  | store fault => "Database error: " ++ fault.message
  | cancelled => "Query cancelled"
  | unresolved what => "Feed not found: " ++ what
  | other text => text

/-- Tells a request to stop. -/
structure CancelToken where
  tripped : Bool
  deriving DecidableEq, Repr

namespace CancelToken

def clear : CancelToken := ⟨false⟩

def check (t : CancelToken) : Except Failure Unit :=
  if t.tripped then .error .cancelled else .ok ()

/-- Reads the store, unless told to stop. -/
def guarded {α : Type} (t : CancelToken) (read : Except Fault α) : Except Failure α :=
  if t.tripped then .error .cancelled else read.mapError .store

end CancelToken

end Newsfeed
