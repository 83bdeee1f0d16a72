import Herald.Ascending

/-!
Stored preferences: for an event type and a transport, whether a person wants to be notified, or no
opinion.
-/

namespace Herald

abbrev PreferenceMap : Type :=
  Dictionary (Dictionary Bool)

namespace PreferenceMap

def wish? (m : PreferenceMap) (type transport : String) : Option Bool :=
  (m.get? type).bind fun wishes => wishes.get? transport

def setWish (m : PreferenceMap) (type transport : String) (wants : Bool) : PreferenceMap :=
  m.set type (((m.get? type).getD ∅).set transport wants)

def isBlank (m : PreferenceMap) : Bool :=
  m.values.all fun wishes => wishes.isEmpty

def types (m : PreferenceMap) : List String :=
  (m.toList.filter fun (_, wishes) => !wishes.isEmpty).map Prod.fst

end PreferenceMap

end Herald
