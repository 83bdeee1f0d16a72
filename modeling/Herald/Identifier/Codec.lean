import Herald.Identifier.Message
import Herald.Identifier.Set
import Herald.Json.Decoding

/-!
The JSON forms of identifiers: keys and identifiers are strings in their written form, a set is an
object from keys to values. Reading makes the same checks as the functions that build them.
-/

namespace Herald

namespace Identifier

def Key.toJson (k : Key) : Json :=
  .string k.text

def toJson (id : Identifier) : Json :=
  .string id.text

def Invalid.fault (e : Invalid) : Json.Fault :=
  .refused e.message

def Key.ofText (s : String) : Except Json.Fault Key :=
  (parse s).mapError Invalid.fault

def Key.decoder : Json.Decoder Key := fun t => do
  Key.ofText (← Json.Decoder.string t)

def decoder : Json.Decoder Identifier := fun t => do
  (parse (← Json.Decoder.string t)).mapError Invalid.fault

end Identifier

namespace IdentifierSet

def toJson (s : IdentifierSet) : Json :=
  .object (s.toList.map fun id => (id.key.text, .string id.value))

/-- Reads one member of an object of identifiers. The key is checked before the value is read. -/
def readMember (entries : Ascending (Identifier.Key × String) Prod.fst) (name : String)
    (value : Json.Tree) :
    Except Json.Fault (Ascending (Identifier.Key × String) Prod.fst) := do
  let key ← Identifier.Key.ofText name
  let value ← Json.Decoder.string value
  .ok (entries.insert (key, value))

/-- Reads a set from an object. Of several members with the same key the last counts, and only then
are the values checked. -/
def decoder : Json.Decoder IdentifierSet := fun t => do
  let entries ← Json.Decoder.mapping ∅ readMember t
  let ids ← (entries.toList.mapM withValue).mapError Identifier.Invalid.fault
  .ok (Ascending.ofList ids)
where
  withValue (entry : Identifier.Key × String) : Except Identifier.Invalid Identifier :=
    entry.1.withValue entry.2

end IdentifierSet

end Herald
