import Newsfeed.Predicate.Basic
import Newsfeed.Text.Lowercase
import Newsfeed.Text.Numeral
import Newsfeed.Time.StoredText
import Newsfeed.Truth

/-!
What a column holds, and the questions that are asked about it. Texts are compared by code points;
where a text is searched or its beginning is taken, it ends before its first NUL.
-/

namespace Newsfeed

open Newsfeed.Text

/-- What a column holds in a row. -/
inductive Cell where
  | null
  | int (n : Int)
  | text (s : String)
  deriving DecidableEq, Repr

/-- Values as columns hold them: switches as 0 and 1, times as stored text. -/
def Value.cell : Value → Cell
  | .bool b => .int (if b then 1 else 0)
  | .int n => .int n
  | .text s => .text s
  | .time t => .text t.storedText

/-- The column holds whole numbers; the others hold texts. -/
def Column.isNumber : Column → Bool
  | .entryId | .score | .unread | .marked | .published | .feedId | .categoryId => true
  | _ => false

/-- The column holds something in every row. -/
def Column.isFilled : Column → Bool
  | .entryId | .title | .content | .score | .dateEntered | .updated => true
  | .unread | .marked | .published => true
  | _ => false

/-- Blanks that may stand around a number. -/
def isNumeralBlank (c : Char) : Bool := c == ' ' || (decide (9 ≤ c.toNat) && decide (c.toNat ≤ 13))

/-- A text without the blanks that may stand around a number. -/
def trimNumeral (s : String) : List Char :=
  ((s.toList.dropWhile isNumeralBlank).reverse.dropWhile isNumeralBlank).reverse

/-- The order of a whole number and a text. A text that writes no number is greater than all of
them; one that writes a number of 64 bits is that number, any other numeral what it is rounded
to. -/
def compareToText (n : Int) (s : String) : Ordering :=
  match readInt64? (trimNumeral s) with
  | some m => compare n m
  | none => match Numeral.ofChars? (trimNumeral s) with
    | some x => x.shortened.compareWhole n
    | none => .lt

namespace Cell

/-- The order of what a column holds and a value; nothing is known of null. Numbers go by size and
texts by code points. A number beside a column of texts is taken as its text, and a text beside a
column of numbers as the number that it writes. -/
def order? : Cell → Cell → Option Ordering
  | .null, _ => none
  | _, .null => none
  | .int a, .int b => some (compare a b)
  | .text a, .text b => some (compare a b)
  | .text a, .int b => some (compare a (toString b))
  | .int a, .text b => some (compareToText a b)

end Cell

namespace Comparison

def accepts : Comparison → Ordering → Bool
  | eq, o => o == .eq
  | isNot, o => o != .eq
  | lt, o => o == .lt
  | le, o => o != .gt
  | gt, o => o == .gt
  | ge, o => o != .lt

/-- Unknown for null, except that null differs from every value. -/
def truth (op : Comparison) (a b : Cell) : Truth :=
  match a.order? b with
  | some o => some (op.accepts o)
  | none => if op = isNot then some true else none

end Comparison

/-- The characters before the first NUL. -/
def untilNul (cs : List Char) : List Char := cs.takeWhile (· != '\x00')

/-- The needle stands somewhere in the text. -/
def holdsRun (needle : List Char) : List Char → Bool
  | [] => needle.isEmpty
  | c :: cs => needle.isPrefixOf (c :: cs) || holdsRun needle cs

/-- The text holds the needle, both in lowercase. A needle that goes on after a NUL is sought at the
end only, as far as it goes before it. -/
def holdsNeedle (needle text : String) : Bool :=
  let sought := lowerChars needle.toList
  let text := untilNul (lowerChars text.toList)
  if sought.contains '\x00' then (untilNul sought).isSuffixOf text else holdsRun sought text

/-- The text begins with the given one, which holds no NUL. -/
def startsText (start text : String) : Bool :=
  !start.toList.contains '\x00' && start.toList.isPrefixOf (untilNul text.toList)

namespace Cell

/-- Whether the text holds the needle. This cannot be asked of a number. -/
def holdsText (c : Cell) (needle : String) : Truth :=
  match c with
  | .null => none
  | .int _ => none
  | .text s => some (holdsNeedle needle s)

/-- Whether the column, as text, begins with the given one. -/
def startsWith (c : Cell) (start : String) : Truth :=
  match c with
  | .null => none
  | .int n => some (startsText start (toString n))
  | .text s => some (startsText start s)

/-- Whether a number of the list equals the column. Nothing equals it when the list is empty, not
even unknowingly. -/
def isOneOf (c : Cell) (values : List Int) : Truth :=
  values.foldr (fun v t => (Comparison.eq.truth c (.int v)).or t) (some false)

end Cell

end Newsfeed
