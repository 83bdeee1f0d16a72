import Herald.Json.Decoding
import Herald.Preference.Map

/-!
The JSON form of preferences: an object of event types, each an object from transports to wishes.
-/

namespace Herald.PreferenceMap

def toJson (m : PreferenceMap) : Json :=
  Json.ofDictionary (Json.ofDictionary .bool) m

def decoder : Json.Decoder PreferenceMap :=
  Json.Decoder.dictionary (Json.Decoder.dictionary Json.Decoder.bool)

end Herald.PreferenceMap
