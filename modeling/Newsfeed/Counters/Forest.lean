import Newsfeed.Store.Basic

/-!
The categories of an owner as a forest. Walks down it keep note of what they have seen and go no
deeper than a bound, so links that run in a circle do not hold them up.
-/

namespace Newsfeed

/-- A category with the one above it. -/
structure CategoryLink where
  id : Int
  parent : Option Int
  deriving DecidableEq, Repr

structure CategoryForest where
  links : List CategoryLink
  maxDepth : Nat
  deriving DecidableEq, Repr

namespace CategoryForest

def ofCategories (categories : List Category) (maxDepth : Nat) : CategoryForest :=
  ⟨categories.map fun c => ⟨c.id, c.parent⟩, maxDepth⟩

def sorted (ids : List Int) : List Int := ids.mergeSort fun a b => decide (a ≤ b)

def ids (f : CategoryForest) : List Int := sorted (f.links.map CategoryLink.id)

def children (f : CategoryForest) (id : Int) : List Int :=
  sorted ((f.links.filter fun l => l.parent = some id).map CategoryLink.id)

/-- A walk on its way down: where it still has to go, with depths, the last place first; and what
it has found, the last first. -/
structure Walk where
  pending : List (Int × Nat)
  found : List Int
  deriving DecidableEq, Repr

/-- Takes note of a child, unless it has been seen. -/
def Walk.meet (root : Int) (depth : Nat) (w : Walk) (child : Int) : Walk :=
  if child = root ∨ child ∈ w.found then w
  else ⟨(child, depth) :: w.pending, child :: w.found⟩

/-- Goes on at the last place. Below the greatest depth there is nothing to find. -/
def step (f : CategoryForest) (root : Int) (w : Walk) : Walk :=
  match w.pending with
  | [] => w
  | (node, depth) :: rest =>
    if f.maxDepth ≤ depth then { w with pending := rest }
    else (f.children node).foldl (Walk.meet root (depth + 1)) { w with pending := rest }

def steps (f : CategoryForest) (root : Int) : Nat → Walk → Walk
  | 0, w => w
  | n + 1, w => steps f root n (f.step root w)

/-- Every category below one, sorted. Each is a place to go from once, so there are no more steps
than categories and the one itself. -/
def descendants (f : CategoryForest) (root : Int) : List Int :=
  sorted (f.steps root (f.links.length + 1) ⟨[(root, 0)], []⟩).found

/-- What a category counts by itself and with all below it. -/
def total (f : CategoryForest) (own : Int → Int) (id : Int) : Int :=
  (f.descendants id).foldl (fun n below => n + own below) (own id)

end CategoryForest

end Newsfeed
