namespace Newsfeed.Wire

/-- A value as it comes from and goes to the outside. -/
inductive Datum where
  | null
  | bool (b : Bool)
  | int (n : Int)
  /-- A number that is not written as a whole one. -/
  | decimal
  | text (s : String)
  | list (items : List Datum)
  | record (fields : List (String × Datum))
  deriving Repr, Inhabited

namespace Datum

/-- The field of a record by its name. -/
def field? : Datum → String → Option Datum
  | .record fields, name => fields.lookup name
  | _, _ => none

def isRecord : Datum → Bool
  | .record _ => true
  | _ => false

/-- A record of `n` known fields, or the list of the first of them. -/
def isTuple (n : Nat) : Datum → Bool
  | .record _ => true
  | .list items => decide (items.length ≤ n)
  | _ => false

/-- The field of a record by its name, or of the list of its fields by its place. -/
def part? (v : Datum) (name : String) (place : Nat) : Option Datum :=
  match v with
  | .record fields => fields.lookup name
  | .list items => items[place]?
  | _ => none

end Datum

end Newsfeed.Wire
