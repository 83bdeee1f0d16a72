import Herald.Json.Decoding

/-!
Records among decoded values. Where it does not matter what is wrong with a value, its fields are
looked up by name: a record is an object, or an array of the fields in order.
-/

namespace Herald.Json

/-- The named values of a record. An array may end before fields that may be left off. -/
def record? (fields : List Field) : Json → Option (List (String × Json))
  | .object members => some members
  | .array items =>
    if items.length ≤ fields.length && (fields.drop items.length).all Field.mayLack then
      some ((fields.map Field.name).zip items)
    else none
  | _ => none

def count? : Json → Option Nat
  | .number (.int n) => if 0 ≤ n then some n.toNat else none
  | _ => none

def listOf? {α : Type} (read : Json → Option α) : Json → Option (List α)
  | .array items => items.mapM read
  | _ => none

def field? {α : Type} (members : List (String × Json)) (name : String) (read : Json → Option α) :
    Option α :=
  (members.lookup name).bind read

def fieldOr? {α : Type} (members : List (String × Json)) (name : String)
    (read : Json → Option α) (absent : α) : Option α :=
  match members.lookup name with
  | some value => read value
  | none => some absent

def orNull? {α : Type} (read : Json → Option α) : Json → Option (Option α)
  | .null => some none
  | value => (read value).map some

end Herald.Json
