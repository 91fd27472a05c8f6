import Newsfeed.Predicate.Cell
import Newsfeed.Proofs.Reading.Chain
import Newsfeed.Proofs.Reading.Lexeme
import Newsfeed.Sql.Statement
import Newsfeed.Text.Decimal

/-!
How the database reads the text of a statement. The values that are handed over beside it take the
places of the question marks one by one. Conditions are read by a grammar with one level for each
precedence, from the loosest operator to the tightest:

  disjunction := conjunction (OR conjunction)*
  conjunction := negation (AND negation)*
  negation := NOT negation | equality
  equality := relation (= relation | IS [NOT] relation | IN list | IN selection
    | LIKE relation ESCAPE relation | MATCH relation)*
  relation := operand (< operand | <= operand | > operand | >= operand)*
  operand := value | number | text | NULL | [table .] column | function list | ( disjunction )
-/

namespace Newsfeed.Sql

open Newsfeed.Reading Newsfeed.Text

def Param.cell : Param → Cell
  | .int n => .int n
  | .text s => .text s

/-- The words that are no names. -/
inductive Keyword where
  | select | distinct
  /-- `FROM`, before the tables. -/
  | source
  | join | left | on
  /-- `WHERE`, before the condition. -/
  | whose
  | order | limit
  | and | or | not
  | is | null
  | isIn | like | escape
  /-- `MATCH`, before a question to a full-text index. -/
  | answers
  deriving DecidableEq, Repr

def keywords : List (String × Keyword) :=
  [("SELECT", .select), ("DISTINCT", .distinct), ("FROM", .source), ("JOIN", .join),
   ("LEFT", .left), ("ON", .on), ("WHERE", .whose), ("ORDER", .order), ("LIMIT", .limit),
   ("AND", .and), ("OR", .or), ("NOT", .not), ("IS", .is), ("NULL", .null), ("IN", .isIn),
   ("LIKE", .like), ("ESCAPE", .escape), ("MATCH", .answers)]

abbrev Name := List Char

inductive Token where
  | keyword (k : Keyword)
  | name (n : Name)
  | number (n : Nat)
  | quoted (text : List Char)
  | opening | closing | comma | dot
  | equals | less | greater
  /-- A sign that has no place in a condition. -/
  | stray (c : Char)
  /-- A value in the place of a question mark. -/
  | value (p : Param)
  deriving DecidableEq, Repr

/-- Keywords are known in any case. -/
def Token.ofWord (w : List Char) : Token :=
  match keywords.find? fun k => k.1.toList = w.map Char.toUpper with
  | some (_, k) => .keyword k
  | none => match readNat? w with
    | some n => .number n
    | none => .name w

def Token.ofSign (c : Char) : Token :=
  if c = '(' then .opening
  else if c = ')' then .closing
  else if c = ',' then .comma
  else if c = '.' then .dot
  else if c = '=' then .equals
  else if c = '<' then .less
  else if c = '>' then .greater
  else .stray c

def Token.ofLexeme? : Lexeme → Option Token
  | .word w => some (.ofWord w)
  | .quoted text => some (.quoted text)
  | .unclosed _ => none
  | .sign c => some (.ofSign c)

/-- The tokens of a statement with the values in the places of the question marks, if there are as
many of the ones as of the others. -/
def bound? : List Lexeme → List Param → Option (List Token)
  | [], ps => if ps.isEmpty then some [] else none
  | l :: ls, ps =>
    if l = .sign '?' then ps.head?.bind fun p => (bound? ls ps.tail).map (.value p :: ·)
    else (Token.ofLexeme? l).bind fun t => (bound? ls ps).map (t :: ·)

def tokens? (sql : String) (params : List Param) : Option (List Token) :=
  bound? (lex '\'' sql.toList) params

/-- A table with the name that it goes by in a statement. -/
structure Source where
  table : Name
  called : Name
  deriving DecidableEq, Repr

inductive Sign where
  | eq | lt | le | gt | ge
  deriving DecidableEq, Repr

inductive Expr where
  | value (c : Cell)
  | column (table : Option Name) (name : Name)
  | call (function : Name) (args : List Expr)
  | no (a : Expr)
  | both (a b : Expr)
  | either (a b : Expr)
  | compare (op : Sign) (a b : Expr)
  /-- `IS`, which takes null for a value. -/
  | same (a b : Expr)
  | like (a pattern escape : Expr)
  | oneOf (a : Expr) (values : List Expr)
  /-- The value is among the results for those rows of the tables that the condition holds for. -/
  | among (a result : Expr) (tables : List Source) (condition : Expr)
  /-- The row of a full-text index answers the question. -/
  | answers (index : Name) (question : Expr)
  deriving Repr

abbrev ExprReader := Reader Token Expr

section Levels

variable (inner : ExprReader)

/-- Expressions with commas between them and a closing bracket behind them. -/
def listFrom : Nat → Reader Token (List Expr)
  | 0, _ => none
  | n + 1, ts =>
    match inner ts with
    | some (e, .comma :: rest) => (listFrom n rest).map fun (es, rest) => (e :: es, rest)
    | some (e, .closing :: rest) => some ([e], rest)
    | _ => none

def list : Reader Token (List Expr) := fun ts => listFrom inner ts.length ts

def operand : ExprReader
  | .value p :: ts => some (.value p.cell, ts)
  | .number n :: ts => some (.value (.int n), ts)
  | .quoted text :: ts => some (.value (.text (String.ofList text)), ts)
  | .keyword .null :: ts => some (.value .null, ts)
  | .name t :: .dot :: .name c :: ts => some (.column (some t) c, ts)
  | .name f :: .opening :: ts => (list inner ts).map fun (args, ts) => (.call f args, ts)
  | .name c :: ts => some (.column none c, ts)
  | .opening :: ts => upTo .closing (inner ts)
  | _ => none

def relationStep (a : Expr) : ExprReader
  | .less :: .equals :: ts => (operand inner ts).map fun (b, ts) => (.compare .le a b, ts)
  | .greater :: .equals :: ts => (operand inner ts).map fun (b, ts) => (.compare .ge a b, ts)
  | .less :: ts => (operand inner ts).map fun (b, ts) => (.compare .lt a b, ts)
  | .greater :: ts => (operand inner ts).map fun (b, ts) => (.compare .gt a b, ts)
  | _ => none

def relation : ExprReader := chain (operand inner) (relationStep inner)

/-- A table, with another name behind it if it goes by one. -/
def source : Reader Token Source
  | .name t :: .name a :: ts => some (⟨t, a⟩, ts)
  | .name t :: ts => some (⟨t, t⟩, ts)
  | _ => none

/-- A table that is joined to those before it. -/
structure Joining where
  source : Source
  /-- Where no row fits, there is one without values. -/
  isLeft : Bool
  on : Expr
  deriving Repr

def joining : Reader Token Joining
  | .keyword .join :: ts =>
    (upTo (.keyword .on) (source ts)).bind fun (t, ts) =>
      (inner ts).map fun (e, ts) => (⟨t, false, e⟩, ts)
  | .keyword .left :: .keyword .join :: ts =>
    (upTo (.keyword .on) (source ts)).bind fun (t, ts) =>
      (inner ts).map fun (e, ts) => (⟨t, true, e⟩, ts)
  | _ => none

def sources : Reader Token (Source × List Joining) :=
  chain (fun ts => (source ts).map fun (t, ts) => ((t, []), ts))
    fun (t, js) ts => (joining inner ts).map fun (j, ts) => ((t, js ++ [j]), ts)

/-- The rest of a statement in brackets. A table that is joined is a table more and a condition
more. -/
def selection (a : Expr) (ts : List Token) : Option (Expr × List Token) := do
  let (result, ts) ← upTo (.keyword .source) (inner ts)
  let ((first, js), ts) ← upTo (.keyword .whose) (sources inner ts)
  let (condition, ts) ← upTo .closing (inner ts)
  if js.any Joining.isLeft then none
  else some (.among a result (first :: js.map Joining.source)
    (js.foldr (fun j c => .both j.on c) condition), ts)

def equalityStep (a : Expr) : ExprReader
  | .equals :: ts => (relation inner ts).map fun (b, ts) => (.compare .eq a b, ts)
  | .keyword .is :: .keyword .not :: ts =>
    (relation inner ts).map fun (b, ts) => (.no (.same a b), ts)
  | .keyword .is :: ts => (relation inner ts).map fun (b, ts) => (.same a b, ts)
  | .keyword .isIn :: .opening :: .keyword .select :: ts => selection inner a ts
  | .keyword .isIn :: .opening :: ts => (list inner ts).map fun (es, ts) => (.oneOf a es, ts)
  | .keyword .like :: ts =>
    (upTo (.keyword .escape) (relation inner ts)).bind fun (pattern, ts) =>
      (relation inner ts).map fun (escape, ts) => (.like a pattern escape, ts)
  | .keyword .answers :: ts => match a with
    | .column none index => (relation inner ts).map fun (b, ts) => (.answers index b, ts)
    | _ => none
  | _ => none

def equality : ExprReader := chain (relation inner) (equalityStep inner)

def negation : ExprReader
  | .keyword .not :: ts => (negation ts).map fun (e, ts) => (.no e, ts)
  | ts => equality inner ts

def joinAnd? : Token → Option (Expr → Expr → Expr)
  | .keyword .and => some .both
  | _ => none

def joinOr? : Token → Option (Expr → Expr → Expr)
  | .keyword .or => some .either
  | _ => none

def conjunction : ExprReader := chain (negation inner) (infixStep (negation inner) joinAnd?)

def disjunction : ExprReader := chain (conjunction inner) (infixStep (conjunction inner) joinOr?)

end Levels

/-- An expression with brackets inside each other at most `n` deep. -/
def expression : Nat → ExprReader
  | 0 => fun _ => none
  | n + 1 => disjunction (expression n)

/-- A condition with nothing after it. Each bracket is a token, so they are no deeper inside each
other than there are tokens. -/
def Expr.ofTokens? (ts : List Token) : Option Expr :=
  match expression (ts.length + 1) ts with
  | some (e, []) => some e
  | _ => none

/-- The condition that a text writes with the values that are handed over beside it. -/
def Expr.read? (sql : String) (params : List Param) : Option Expr :=
  (tokens? sql params).bind Expr.ofTokens?

end Newsfeed.Sql
