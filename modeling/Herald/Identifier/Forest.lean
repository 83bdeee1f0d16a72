/-!
A forest over the positions `0, …, n - 1`: every position points to a parent, roots to themselves.
Two positions are in one class when they have the same root. Looking a root up shortens the path to
it, and joining two classes hangs the smaller one below the larger one.
-/

namespace Herald

/-- Parents and class sizes by position; a size counts only at a root. -/
structure Forest where
  parents : List Nat
  sizes : List Nat
deriving DecidableEq, Repr

namespace Forest

def discrete (n : Nat) : Forest :=
  ⟨List.range n, List.replicate n 1⟩

def parent (f : Forest) (x : Nat) : Nat :=
  f.parents[x]?.getD x

def weight (f : Forest) (x : Nat) : Nat :=
  f.sizes[x]?.getD 0

def hang (f : Forest) (x p : Nat) : Forest :=
  { f with parents := f.parents.set x p }

/-- Climbs from `x` towards its root, at most `steps` times. Each step hangs the position below its
grandparent and goes on from there. -/
def climb : (steps : Nat) → (f : Forest) → (x : Nat) → Forest × Nat
  | 0, f, x => (f, x)
  | steps + 1, f, x =>
    if f.parent x = x then (f, x)
    else
      let grandparent := f.parent (f.parent x)
      climb steps (f.hang x grandparent) grandparent

/-- The root of `x`, and the forest with a shorter path to it. No path is longer than the number of
positions. -/
def find (f : Forest) (x : Nat) : Forest × Nat :=
  f.climb f.parents.length x

def link (f : Forest) (top child : Nat) : Forest :=
  { parents := f.parents.set child top
    sizes := f.sizes.set top (f.weight top + f.weight child) }

def union (f : Forest) (a b : Nat) : Forest :=
  let (f, rootA) := f.find a
  let (f, rootB) := f.find b
  if rootA = rootB then f
  else if f.weight rootA < f.weight rootB then f.link rootB rootA
  else f.link rootA rootB

end Forest

end Herald
