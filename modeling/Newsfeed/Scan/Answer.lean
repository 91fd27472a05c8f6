import Newsfeed.Scan.Condition
import Newsfeed.Store.Join

/-!
What a condition says of a row, or that it cannot be said. Its tests are done one after the other
until it is settled, so that a fault behind that point is not met.
-/

namespace Newsfeed.Scan

open Newsfeed.Text

/-- What a text in place of a number is, if it is none that a column of numbers would hold. -/
def numeral? (s : String) : Option Numeral :=
  (Numeral.ofChars? (trimNumeral s)).map Numeral.shortened

/-- The order of a value that takes the place of a column and another one. In place of a number
there may be a text, a numeral before any other. -/
def orderOfValue? (c : Column) : Cell → Cell → Option Ordering
  | .text a, b =>
    if !c.isNumber then (Cell.text a).order? b
    else match adapted c b, numeral? a with
      | .null, _ => none
      | .int n, _ => some (compareToText n a).swap
      | .text b, some x => some (match numeral? b with
        | some y => x.order y
        | none => .lt)
      | .text b, none => some (if (numeral? b).isSome then .gt else compare a b)
  | a, b => a.order? b

/-- What kind of number a column holds. -/
def numberKind? (c : Column) : Cell → Option NumberKind
  | .int _ => some .whole
  | .text s =>
    if c.isNumber ∧ (numeral? s).isSome then some .fractional else none
  | .null => none

namespace Question

def truth (c : Column) (a : Cell) : Question → Truth
  | compare op b => match orderOfValue? c a b with
    | some o => some (op.accepts o)
    | none => op.truth a b
  | isNull => some (a = .null)
  | notNull => some (a ≠ .null)
  | contains needle => a.holdsText needle
  | isOneOf values => a.isOneOf values
  | startsWith start => a.startsWith start

/-- A text is looked for in texts only, and only one that is not too long. -/
def fault? (c : Column) (a : Cell) : Question → Option Fault
  | contains needle => ((numberKind? c a).map Fault.notText).or
      (if isTooLong needle then some .tooLong else none)
  | _ => none

end Question

namespace Membership

def holds (s : Store) (m : Membership) : Cell → Bool
  | .int n => match m with
    | label id => s.labelings.contains ⟨id, n⟩
    | labelOf owner => s.hasLabelOf n owner
    | tag owner name => s.tags.contains ⟨owner, n, name⟩
    | indexed e => e.holds (s.indexedWords n)
  | _ => false

def fault? : Membership → Option Fault
  | indexed e => if e.overflows then some .indexOverflow else none
  | _ => none

/-- The number of the row that is asked about. -/
def row (l : Look) : Membership → Cell
  | tag _ _ => Cell.ofInt? (l.copy.map Copy.id)
  | _ => Cell.ofInt? l.articleId?

end Membership

namespace Test

/-- The fault of a question to an index, whatever it is asked about. -/
def fault? : Test → Option Fault
  | member m _ => m.fault?
  | _ => none

def ask (s : Store) (l : Look) : Test → Except Fault Truth
  | cell c value q =>
    let a := value.getD (l.cell c)
    match q.fault? c a with
    | some e => .error e
    | none => .ok (q.truth c a)
  | member m row => match m.fault? with
    | some e => .error e
    | none => .ok (some (m.holds s (row.getD (m.row l))))
  | refused e => .error (.ofQuery e)

end Test

namespace Condition

/-- The condition comes out as what is written in one part of it. -/
def literal? : Condition → Option Bool
  | literal b => some b
  | both a b =>
    if a.literal? = some true ∨ b.literal? = some false then b.literal?
    else if b.literal? = some true ∨ a.literal? = some false then a.literal?
    else none
  | either a b =>
    if a.literal? = some true ∨ b.literal? = some false then a.literal?
    else if b.literal? = some true ∨ a.literal? = some false then b.literal?
    else none
  | _ => none

/-- The first of two parts asks another table and the second does not. The second is then looked at
first. -/
def isBackward (a b : Condition) : Bool := a.asksTable && !b.asksTable

/-- Whether the condition holds, what is unknown being taken for `unknown`. A part that is written
as true or false stands for all, or for nothing. -/
def holds (ask : Test → Except Fault Truth) (unknown : Bool) : Condition → Except Fault Bool
  | literal b => .ok b
  | settled _ b => .ok b
  | test t => (ask t).map fun truth => truth.getD unknown
  | no a => (a.holds ask !unknown).map (!·)
  | both a b =>
    if a.literal? = some true ∨ b.literal? = some false then b.holds ask unknown
    else if b.literal? = some true ∨ a.literal? = some false then a.holds ask unknown
    else if isBackward a b then
      (b.holds ask unknown).bind fun x => if x then a.holds ask unknown else .ok false
    else (a.holds ask unknown).bind fun x => if x then b.holds ask unknown else .ok false
  | either a b =>
    if a.literal? = some true ∨ b.literal? = some false then a.holds ask unknown
    else if b.literal? = some true ∨ a.literal? = some false then b.holds ask unknown
    else if isBackward a b then
      (b.holds ask unknown).bind fun x => if x then .ok true else a.holds ask unknown
    else (a.holds ask unknown).bind fun x => if x then .ok true else b.holds ask unknown

/-- All of the conditions are true, looked at in order. -/
def allHold (ask : Test → Except Fault Truth) : List Condition → Except Fault Bool
  | [] => .ok true
  | c :: cs => (c.holds ask false).bind fun x => if x then allHold ask cs else .ok false

end Condition

end Newsfeed.Scan
