import Newsfeed.Time.Instant

/-!
Filters on the rows of a listing. The columns are a closed set, so a filter never holds a name that
a reader or a plugin wrote.
-/

namespace Newsfeed

open Newsfeed.Time

inductive Column where
  | entryId | title | content | author | score | dateEntered | updated
  | unread | marked | published | note | feedId | categoryId
  | lastRead | lastMarked | lastPublished
  deriving DecidableEq, Repr

inductive Comparison where
  | eq
  /-- Differs, also when the column is null. -/
  | isNot
  | lt | le | gt | ge
  deriving DecidableEq, Repr

inductive Value where
  | bool (b : Bool)
  | int (n : Int)
  | text (s : String)
  | time (t : Instant)
  deriving DecidableEq, Repr

inductive Predicate where
  | always
  | never
  | conj (parts : List Predicate)
  | disj (parts : List Predicate)
  | no (inner : Predicate)
  | compare (column : Column) (op : Comparison) (value : Value)
  | isNull (column : Column)
  | notNull (column : Column)
  /-- The column holds the needle somewhere, in any case. -/
  | contains (column : Column) (needle : String)
  | inList (column : Column) (values : List Int)
  | startsWith (column : Column) (start : String)
  /-- The article carries the label. -/
  | label (id : Int)
  /-- The article carries a label of the owner. -/
  | labelOf (owner : Int)
  /-- The owner has tagged the copy with the name. -/
  | tag (owner : Int) (name : String)
  | fullText (language query : String)
  deriving Repr, Inhabited

namespace Predicate

/-- The parts of a conjunction, without `always` and with inner conjunctions spread out; `none`
when one part is `never`. -/
def conjuncts? : List Predicate → Option (List Predicate)
  | [] => some []
  | .always :: ps => conjuncts? ps
  | .never :: _ => none
  | .conj inner :: ps => (conjuncts? ps).map (inner ++ ·)
  | p :: ps => (conjuncts? ps).map (p :: ·)

/-- A conjunction in its simplest form. -/
def all (ps : List Predicate) : Predicate :=
  match conjuncts? ps with
  | none => .never
  | some [] => .always
  | some [p] => p
  | some kept => .conj kept

/-- The parts of a disjunction without `never`; `none` when one part is `always`. -/
def disjuncts? : List Predicate → Option (List Predicate)
  | [] => some []
  | .never :: ps => disjuncts? ps
  | .always :: _ => none
  | p :: ps => (disjuncts? ps).map (p :: ·)

/-- A disjunction in its simplest form. -/
def any (ps : List Predicate) : Predicate :=
  match disjuncts? ps with
  | none => .always
  | some [] => .never
  | some [p] => p
  | some kept => .disj kept

/-- The opposite. What is asked to equal a value is asked to differ from it instead, so that
unset columns pass. -/
def negate : Predicate → Predicate
  | .always => .never
  | .never => .always
  | .no inner => inner
  | .compare c .eq v => .compare c .isNot v
  | .isNull c => .notNull c
  | .notNull c => .isNull c
  | p => .no p

def isNever : Predicate → Bool
  | .never => true
  | _ => false

mutual

/-- The full-text parts as language and query, the last part first. -/
def fullTextTerms : Predicate → List (String × String)
  | .conj parts => termsOfAll parts
  | .disj parts => termsOfAll parts
  | .no inner => fullTextTerms inner
  | .fullText language query => [(language, query)]
  | _ => []

def termsOfAll : List Predicate → List (String × String)
  | [] => []
  | p :: ps => termsOfAll ps ++ fullTextTerms p

end

end Predicate

end Newsfeed
