namespace Newsfeed.Toml

/-- A value of a TOML document. -/
inductive Value where
  | bool (b : Bool)
  | int (n : Int)
  /-- A number with a fraction or an exponent, an infinity or no number. -/
  | float
  /-- A date, a time of day, or both. -/
  | moment
  | text (s : String)
  | list (items : List Value)
  | table (entries : List (String × Value))
  deriving Repr

/-- The entry of a table by its key, or of a list by its place. -/
def Value.part? (v : Value) (key : String) (place : Nat) : Option Value :=
  match v with
  | .table entries => entries.lookup key
  | .list items => items[place]?
  | _ => none

/-- A value with parts. The parts of a date or a time have no names that a table could use. -/
def Value.isComposite : Value → Bool
  | .table _ => true
  | .list _ => true
  | .moment => true
  | _ => false

/-- Reads something from the front of a text. -/
abbrev Reader (α : Type) := List Char → Option (α × List Char)

end Newsfeed.Toml
