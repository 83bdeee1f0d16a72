import Herald.Identifier.Basic

/-!
Sets of identifiers with one value per key: what is known of one person. They are kept in key order,
which is the order of their written form, so equal sets are the same list.
-/

namespace Herald

abbrev IdentifierSet : Type :=
  Ascending Identifier Identifier.key

namespace IdentifierSet

def singleton (id : Identifier) : IdentifierSet :=
  Ascending.insert id ∅

def get? (s : IdentifierSet) (k : Identifier.Key) : Option Identifier :=
  s.lookup? k

/-- True if the set holds the key of `id` with exactly its value. -/
def holds (s : IdentifierSet) (id : Identifier) : Bool :=
  s.get? id.key == some id

def holdsKind (s : IdentifierSet) (kind : String) : Bool :=
  s.toList.any fun id => id.key.kind == kind

/-- All identifiers of both sets; where both have a key, the value of `other` counts. -/
def merge (s other : IdentifierSet) : IdentifierSet :=
  s.insertAll other.toList

def intersect (s other : IdentifierSet) : IdentifierSet :=
  s.filter other.holds

/-- The identifiers in key order between brackets, as `[k1:v1 k2:v2]`. -/
def text (s : IdentifierSet) : String :=
  "[" ++ " ".intercalate (s.toList.map Identifier.text) ++ "]"

def debugText (s : IdentifierSet) : String :=
  "Set" ++ s.text

end IdentifierSet

structure MissingIdentifier where
  key : Identifier.Key
  set : IdentifierSet
deriving DecidableEq

def MissingIdentifier.message (e : MissingIdentifier) : String :=
  s!"identifier {e.key.text} not present in {e.set.text}"

def IdentifierSet.require (s : IdentifierSet) (k : Identifier.Key) :
    Except MissingIdentifier Identifier :=
  match s.get? k with
  | some id => .ok id
  | none => .error ⟨k, s⟩

end Herald
