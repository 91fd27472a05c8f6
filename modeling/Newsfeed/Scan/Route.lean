import Newsfeed.Scan.Arrangement

/-!
The order in which the tables are gone through, one inside the other, that is taken to cost least.
-/

namespace Newsfeed.Scan

/-- Some of the tables in the order in which they are gone through. -/
structure Route where
  steps : List Lookup
  rows : Estimate
  /-- What the steps cost. -/
  spent : Estimate
  /-- What everything costs. -/
  cost : Estimate
  /-- How many criteria the rows are in order by, unless there is no more than one row so far. -/
  arranged : Option Nat
  deriving Repr

/-- The cost of sorting so many rows that are in order by so many criteria; none if that is all. The
fewer are asked for or left, the less is to be done. -/
def Purpose.sorting? (p : Purpose) (rows : Estimate) (arranged : Nat) : Option Estimate :=
  let all := p.criteria.length
  let part : Estimate := if arranged = 0 then 0 else .ofNat ((all - arranged) * 100 / all) - 66
  if all ≤ arranged then none
  else match p.limit? with
    | some n =>
      let blocks : Estimate := if arranged = 0 then 0 else 6
      some (rows + 20 + part + blocks + Estimate.log (min rows (.ofNat n)))
    | none =>
      let kept := if p.isDistinct ∧ 10 < rows then rows - 10 else rows
      some (rows + 10 + part + Estimate.log kept)

namespace Route

/-- The table is gone through. -/
def reads (r : Route) (t : Table) : Bool := r.steps.any fun l => l.table = t

/-- The lookup can be the next step. -/
def admits (r : Route) (l : Lookup) : Bool := !r.reads l.table && l.needs.all r.reads

/-- A step more. Given how many rows are to be sorted, those that are not met in order are sorted in
the end. -/
def add (g : Goal) (sorted : Option Estimate) (r : Route) (l : Lookup) : Route :=
  let spent := Estimate.sum (l.cost + r.rows) r.spent
  let arranged := r.arranged.or
    (if l.isSingle then none else some (g.arranged (r.steps.map Lookup.table) l))
  let sorting := sorted.bind fun rows => arranged.bind fun n => g.purpose.sorting? rows n
  match sorting with
  | none => ⟨r.steps ++ [l], r.rows + l.rows, spent - 2, spent, arranged⟩
  | some n => ⟨r.steps ++ [l], r.rows + l.rows, spent, Estimate.sum spent n + 3, arranged⟩

/-- The routes are through the same tables, and as to order as much can be said of both. -/
def isRival (r q : Route) : Bool :=
  r.arranged.isSome = q.arranged.isSome &&
    [.articles, .copies, .feeds].all fun t => r.reads t == q.reads t

/-- By cost, then by rows, then by the cost of the steps. -/
def isBetter (r q : Route) : Bool :=
  decide (r.cost < q.cost) || (r.cost = q.cost &&
    (decide (r.rows < q.rows) || (r.rows = q.rows && decide (r.spent < q.spent))))

/-- Of rivals the best is kept, the first of several. -/
def insert : List Route → Route → List Route
  | [], r => [r]
  | q :: qs, r =>
    if r.isRival q then (if r.isBetter q then r else q) :: qs else q :: insert qs r

/-- The best routes with a step more. -/
def extend (g : Goal) (sorted : Option Estimate) (ls : List Lookup) (rs : List Route) :
    List Route :=
  (rs.flatMap fun r => (ls.filter r.admits).map (r.add g sorted)).foldl insert []

/-- The route of least cost, the first of several. -/
def cheapest (start : Route) : List Route → Route
  | [] => start
  | r :: rs => rs.foldl (fun best r => if r.cost < best.cost then r else best) r

/-- The best route by these lookups through all tables. Order does not matter where nothing is
sorted. -/
def best (g : Goal) (ls : List Lookup) (sorted : Option Estimate) : Route :=
  let start : Route := ⟨[], 0, 0, 0, if sorted.isSome then none else some 0⟩
  let extend := extend g sorted ls
  cheapest start (extend (extend (extend [start])))

/-- The tables that are gone through first, as long as keys are looked up in them. -/
def exactTables (r : Route) : List Table := (r.steps.takeWhile Lookup.isExact).map Lookup.table

end Route

/-- How the rows of a goal are found. Unless any row will do they are sorted or told apart, and then
a route with fewer rows may be better. It is chosen in turn, and where keys were looked up the first
time, the parts of a disjunction are not gone through. -/
def Goal.route (g : Goal) : Route :=
  let ls := g.lookups
  let route := Route.best g ls none
  if g.purpose = .trial then route
  else
    let exact := route.exactTables
    Route.best g (ls.filter fun l => !(l.index.isOfParts && exact.contains l.table))
      (some (if route.rows < 0 then 1 else route.rows + 1))

end Newsfeed.Scan
