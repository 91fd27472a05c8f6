import Newsfeed.FullText.Word

/-!
What the full-text index can be asked. A document is its list of words; an expression is about
phrases in it. The index has no negation of its own, only "this but not that".
-/

namespace Newsfeed.FullText

/-- Consecutive words; starred, the last one stands for every word that starts with it. -/
structure Phrase where
  words : List String
  starred : Bool
  deriving DecidableEq, Repr

inductive IndexExpr where
  | phrase (p : Phrase)
  /-- Both phrases with at most `gap` words between them, in either order. -/
  | near (p q : Phrase) (gap : Nat)
  | both (a b : IndexExpr)
  | either (a b : IndexExpr)
  | butNot (a b : IndexExpr)
  deriving DecidableEq, Repr

namespace Phrase

/-- The words stand at the front of the document. -/
def startsAt : List String → Bool → List String → Bool
  | [], _, _ => true
  | _ :: _, _, [] => false
  | [w], starred, d :: _ => if starred then w.toList.isPrefixOf d.toList else w == d
  | w :: ws, starred, d :: ds => w == d && startsAt ws starred ds

/-- The positions in a document at which the phrase starts. -/
def starts (p : Phrase) (doc : List String) : List Nat :=
  (List.range doc.length).filter fun i => startsAt p.words p.starred (doc.drop i)

/-- The phrase in double quotes, in which a quote is written twice; the star stands behind. -/
def text (p : Phrase) : String :=
  let body := (String.intercalate " " p.words).toList.flatMap fun c =>
    if c = '"' then ['"', '"'] else [c]
  "\"" ++ String.ofList body ++ "\"" ++ if p.starred then "*" else ""

end Phrase

/-- Whether an occurrence that starts at `i` begins and ends near enough to one at `m` that starts
no earlier: no more than `gap` words lie between. -/
def within (gap m : Nat) (p : Phrase) (i : Nat) : Bool :=
  decide (m ≤ i + p.words.length + gap) && decide (i ≤ m)

/-- Occurrences of both phrases stand near the later start of the two. -/
def nearIn (p q : Phrase) (gap : Nat) (doc : List String) : Bool :=
  (p.starts doc).any fun i => (q.starts doc).any fun j =>
    within gap (max i j) p i && within gap (max i j) q j

namespace IndexExpr

def holds (doc : List String) : IndexExpr → Bool
  | phrase p => (p.starts doc) != []
  | near p q gap => nearIn p q gap doc
  | both a b => a.holds doc && b.holds doc
  | either a b => a.holds doc || b.holds doc
  | butNot a b => a.holds doc && !b.holds doc

/-- The expression as the index reads it. -/
def text : IndexExpr → String
  | phrase p => p.text
  | near p q gap => "NEAR(" ++ p.text ++ " " ++ q.text ++ ", " ++ toString gap ++ ")"
  | both a b => "(" ++ a.text ++ ") AND (" ++ b.text ++ ")"
  | either a b => "(" ++ a.text ++ ") OR (" ++ b.text ++ ")"
  | butNot a b => "(" ++ a.text ++ ") NOT (" ++ b.text ++ ")"

/-- How many pieces of its text are open at once while the index reads it. -/
def depth : IndexExpr → Nat
  | phrase _ => 2
  | near _ _ _ => 5
  | both a b => max (a.depth + 1) (b.depth + 3)
  | either a b => max (a.depth + 1) (b.depth + 3)
  | butNot a b => max (a.depth + 1) (b.depth + 3)

/-- The index keeps fewer than a hundred pieces open. -/
def overflows (e : IndexExpr) : Bool := 100 ≤ e.depth

end IndexExpr

end Newsfeed.FullText
