import Herald.Identifier.Forest
import Herald.Identifier.Set

/-!
Grouping of sets that name the same person. Two sets belong together when a chain of sets leads from
one to the other in which neighbours share an identifier; each group is merged into one set.
-/

namespace Herald.IdentifierSet

/-- The state of the search for groups: the classes found so far, and for every identifier seen the
first position that holds it. -/
structure Scan where
  forest : Forest
  /-- First holders, the latest first. -/
  owners : List (Identifier × Nat)

def Scan.visit (position : Nat) (scan : Scan) (id : Identifier) : Scan :=
  match scan.owners.lookup id with
  | some owner => { scan with forest := scan.forest.union owner position }
  | none => { scan with owners := (id, position) :: scan.owners }

def Scan.visitSet (scan : Scan) (entry : IdentifierSet × Nat) : Scan :=
  entry.1.toList.foldl (visit entry.2) scan

def classes (sets : List IdentifierSet) : Forest :=
  (sets.zipIdx.foldl Scan.visitSet ⟨.discrete sets.length, []⟩).forest

def addToGroup (root position : Nat) : List (Nat × List Nat) → List (Nat × List Nat)
  | [] => [(root, [position])]
  | (r, members) :: rest =>
    if r = root then (r, members ++ [position]) :: rest
    else (r, members) :: addToGroup root position rest

def file (state : Forest × List (Nat × List Nat)) (position : Nat) :
    Forest × List (Nat × List Nat) :=
  let (forest, root) := state.1.find position
  (forest, addToGroup root position state.2)

/-- The positions of `sets` in groups, members ascending and groups in order of their first. -/
def groupPositions (sets : List IdentifierSet) : List (List Nat) :=
  ((List.range sets.length).foldl file (classes sets, [])).2.map Prod.snd

/-- The merge of the sets at the given positions, in that order. Positions past the end are passed
over. -/
def mergeGroup (sets : List IdentifierSet) (members : List Nat) : IdentifierSet :=
  (members.filterMap fun i => sets[i]?).foldl merge ∅

def mergeLinked (sets : List IdentifierSet) : List IdentifierSet :=
  (groupPositions sets).map (mergeGroup sets)

end Herald.IdentifierSet
