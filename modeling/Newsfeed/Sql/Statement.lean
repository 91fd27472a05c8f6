namespace Newsfeed.Sql

/-- A value that is handed over beside the text of a statement. -/
inductive Param where
  | int (n : Int)
  | text (s : String)
  deriving DecidableEq, Repr

/-- A part of a statement: text that stands in it as it is, or a value that is handed over and has
a question mark as its place. -/
inductive Piece where
  | text (s : String)
  | param (p : Param)
  deriving DecidableEq, Repr

abbrev Statement := List Piece

def Piece.sql : Piece → String
  | text s => s
  | param _ => "?"

def Piece.param? : Piece → Option Param
  | text _ => none
  | param p => some p

namespace Statement

/-- The text of a statement. -/
def sql (s : Statement) : String := String.join (s.map Piece.sql)

/-- The values in the order of their places. -/
def params (s : Statement) : List Param := s.filterMap Piece.param?

/-- The parts in brackets with an operator between them. -/
def joined (operator : String) (parts : List Statement) : Statement :=
  [.text "("] ++ (parts.intersperse [.text operator]).flatten ++ [.text ")"]

end Statement

end Newsfeed.Sql
