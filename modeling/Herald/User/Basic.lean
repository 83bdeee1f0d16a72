import Herald.Identifier.Codec
import Herald.Preference.Codec

/-!
A user: a key, everything the person is known by, and stored preferences.
-/

namespace Herald

structure User where
  key : String
  identifiers : IdentifierSet
  preferences : PreferenceMap
deriving DecidableEq

namespace User

/-- The values of all identifiers of kind `email`, in any namespace, in ascending order. -/
def emails (u : User) : List String :=
  let ids := u.identifiers.toList.filter fun id => id.key.kind == Identifier.emailKind
  (Ascending.ofList (ids.map Identifier.value) : Ascending String id).toList

def toJson (u : User) : Json :=
  .object [("identifiers", u.identifiers.toJson), ("key", .string u.key),
    ("preferences", u.preferences.toJson)]

structure Draft where
  key : Option String := none
  identifiers : Option IdentifierSet := none
  preferences : Option PreferenceMap := none

def Draft.assign (d : Draft) (name : String) (t : Json.Tree) : Except Json.Fault Draft :=
  match name with
  | "key" => do .ok { d with key := ← Json.once name d.key Json.Decoder.string t }
  | "identifiers" => do
    .ok { d with identifiers := ← Json.once name d.identifiers IdentifierSet.decoder t }
  | "preferences" => do
    .ok { d with preferences := ← Json.once name d.preferences PreferenceMap.decoder t }
  | _ => do
    Json.Decoder.skip t
    .ok d

def record : Json.Record Draft where
  name := "User"
  fields := [⟨"key", false⟩, ⟨"identifiers", true⟩, ⟨"preferences", true⟩]
  assign := Draft.assign

/-- Reads a user; identifiers and preferences may be left off. -/
def decoder : Json.Decoder User := fun t => do
  let d ← record.read {} t
  let key ← Json.required "key" d.key
  .ok ⟨key, d.identifiers.getD ∅, d.preferences.getD ∅⟩

end User

end Herald
