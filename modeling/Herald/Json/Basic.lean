import Herald.Ascending

/-!
JSON values. The members of an object stand in ascending order of their names, one per name.
-/

namespace Herald

/-- A number is an integer, or a binary fraction where the text had a point or an exponent or went
beyond the integers of 64 bits. -/
inductive Json.Number where
  | int (n : Int)
  | real (x : Float)
deriving BEq, Inhabited

inductive Json where
  | null
  | bool (b : Bool)
  | number (n : Json.Number)
  | string (s : String)
  | array (items : List Json)
  | object (members : List (String × Json))
deriving BEq, Inhabited

namespace Json

def int (n : Int) : Json :=
  .number (.int n)

/-- An object of the given members; of several with the same name the last counts. -/
def ofMembers (members : List (String × Json)) : Json :=
  .object (Ascending.ofList members : Dictionary Json).toList

def ofDictionary {α : Type} (entry : α → Json) (m : Dictionary α) : Json :=
  .object (m.toList.map fun (name, a) => (name, entry a))

/-- The member of an object with this name; null where there is none. -/
def member (name : String) : Json → Json
  | .object members => (members.lookup name).getD .null
  | _ => .null

def text? : Json → Option String
  | .string s => some s
  | _ => none

def members? : Json → Option (List (String × Json))
  | .object members => some members
  | _ => none

end Json

end Herald
