import Newsfeed.Scan.Lookup

/-!
Lookups by the parts of a disjunction, where each part can be found by an index: the rows of one
part after those of another.
-/

namespace Newsfeed.Scan

/-- The question may be put to an index. -/
def Question.isOfIndex : Question → Bool
  | compare op _ => op ≠ .isNot
  | isNull => true
  | notNull => false
  | contains _ => false
  | isOneOf _ => true
  | startsWith _ => false

namespace Condition

/-- The table that an index for the condition would be of. -/
def foothold? : Condition → Option Table
  | test (.cell c value q) =>
    if q.isOfIndex ∨ (q = .notNull ∧ value = none) then some (tableOf c) else none
  | test (.member m _) => some m.table
  | either a b =>
    let parts := (either a b).alternatives
    let columns := parts.map fun part => match part with
      | test (.cell c none (.compare .eq _)) => some c
      | _ => none
    match columns with
    | some c :: rest => if rest.all (· = some c) then some (tableOf c) else none
    | _ => none
  | _ => none

/-- Each part of the disjunction has to do with the table. -/
def spreadsOver (c : Condition) (t : Table) : Bool :=
  let parts := c.alternatives
  decide (1 < parts.length) && parts.all fun part =>
    part.requirements.any fun r => r.foothold? = some t

end Condition

/-- What it takes to find the rows of some parts. -/
structure Offer where
  needs : List Table
  cost : Estimate
  rows : Estimate
  deriving DecidableEq, Repr

namespace Offer

def ofLookup (l : Lookup) : Offer := ⟨l.needs, l.cost, l.rows⟩

/-- Both one after the other. -/
def join (a b : Offer) : Offer :=
  ⟨a.needs ++ b.needs, Estimate.sum a.cost b.cost, Estimate.sum a.rows b.rows⟩

/-- An offer takes the place of the first that costs no less and needs no less. One that costs no
more and needs no more keeps it out, and so do three others. -/
def insert : List Offer → List Offer → Offer → List Offer
  | done, [], o => if done.length < 3 then done ++ [o] else done
  | done, p :: ps, o =>
    if o.cost ≤ p.cost ∧ o.needs.all p.needs.contains then
      done ++ { o with rows := min p.rows o.rows } :: ps
    else if p.cost ≤ o.cost ∧ p.needs.all o.needs.contains then done ++ p :: ps
    else insert (done ++ [p]) ps o

def collect (os : List Offer) : List Offer := os.foldl (insert []) []

/-- The offers for parts together. -/
def joinAll : List (List Offer) → List Offer
  | [] => []
  | first :: rest =>
    rest.foldl (fun sums next => collect (sums.flatMap fun a => next.map a.join)) first

end Offer

namespace Lookup

/-- A lookup of a goal, as one of a goal with so many requirements more before those. -/
def shifted (count : Nat) (l : Lookup) : Lookup :=
  { l with handles := l.handles.map fun h => { h with place := h.place.map (count + ·) } }

/-- The offers for the rows of a part. They are judged beside the lookups that are known without
it. -/
def offersFor (g : Goal) (known : List Lookup) (table : Table) (part : Condition) : List Offer :=
  let known := known.map (shifted part.requirements.length)
  Offer.collect ((ofTable (g.within part) [] table).map fun l =>
    Offer.ofLookup (known.foldl adjusted l))

/-- The lookups by the parts of a disjunction. -/
def ofParts (g : Goal) (known : List Lookup) (table : Table) (c : Condition) (place : Nat) :
    List Lookup :=
  (Offer.joinAll (c.alternatives.map (offersFor g known table))).map fun o =>
    ⟨table, .parts place, o.needs, [], 0, o.rows, o.cost + 1⟩

/-- Lookups together with those by disjunctions that are required. -/
def withDisjunctions (g : Goal) (table : Table) (known : List Lookup) : List Lookup :=
  g.terms.zipIdx.foldl
    (fun ls (c, i) =>
      if c.spreadsOver table then (ofParts g ls table c i).foldl (insert g) ls else ls)
    known

end Lookup

/-- The lookups that are worth doing. -/
def Goal.lookups (g : Goal) : List Lookup :=
  let add (known : List Lookup) (table : Table) (needs : List Table) : List Lookup :=
    (Lookup.ofTable g needs table).foldl (Lookup.insert g) known
  let ofArticles := Lookup.withDisjunctions g .articles (add [] .articles [])
  let ofCopies := Lookup.withDisjunctions g .copies (add ofArticles .copies [])
  add ofCopies .feeds (if g.keepsArchived then [.articles, .copies] else [])

end Newsfeed.Scan
