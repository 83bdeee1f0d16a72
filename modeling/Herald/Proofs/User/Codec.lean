import Herald.Proofs.Identifier.Notation
import Herald.Proofs.Json.Decoding
import Herald.User.Table

/-!
What is stored of a user reads back: preferences and identifiers decode from their JSON to what they
were, and so does a user from the row that stores the user.
-/

namespace Herald

namespace PreferenceMap

@[simp] theorem decoder_toJson (m : PreferenceMap) : decoder m.toJson.toTree = .ok m :=
  Json.dictionary_ofDictionary (Json.dictionary_ofDictionary fun _ => rfl) m

theorem toJson_numberless (m : PreferenceMap) : m.toJson.numberless :=
  Json.ofDictionary_numberless (Json.ofDictionary_numberless fun _ => rfl) m

/-- The text of preferences reads back. -/
@[simp] theorem decodeText_text (m : PreferenceMap) :
    Json.decodeText decoder m.toJson.text = .ok m :=
  Json.decodeText_text m.toJson_numberless m.decoder_toJson

end PreferenceMap

namespace Identifier

@[simp] theorem Key.ofText_text (k : Key) : ofText k.text = .ok k := by
  rw [ofText, parse_text]
  rfl

@[simp] theorem withValue_value (id : Identifier) : id.key.withValue id.value = .ok id :=
  Key.withValue_eq_ok_iff.mpr ⟨rfl, rfl⟩

end Identifier

namespace IdentifierSet

theorem entries_of_toJson (s : IdentifierSet) :
    Json.Decoder.mapping ∅ readMember s.toJson.toTree =
      .ok (Ascending.ofList (s.toList.map fun id => (id.key, id.value))) := by
  have hmembers := Json.members_ok readMember
    (fun entries id => entries.insert (id.key, id.value))
    (fun id : Identifier => (id.key.text, .string id.value)) s.toList
    (fun id _ entries => by rw [readMember, Identifier.Key.ofText_text]; rfl) ∅
  rw [Ascending.ofList, Ascending.insertAll, List.foldl_map]
  exact hmembers

/-- The keys and values of a set are in order as they stand. -/
def pairs (s : IdentifierSet) : Ascending (Identifier.Key × String) Prod.fst :=
  ⟨s.toList.map fun id => (id.key, id.value), List.pairwise_map.mpr s.ascending⟩

@[simp] theorem decoder_toJson (s : IdentifierSet) : decoder s.toJson.toTree = .ok s := by
  have hpairs : Ascending.ofList (s.toList.map fun id => (id.key, id.value)) = s.pairs :=
    Ascending.ofList_toList s.pairs
  have hvalues : s.pairs.toList.mapM decoder.withValue = .ok s.toList := by
    have h : ∀ ids : List Identifier,
        (ids.map fun id => (id.key, id.value)).mapM decoder.withValue = .ok ids := by
      intro ids
      induction ids with
      | nil => rfl
      | cons id ids ih =>
        rw [List.map_cons, List.mapM_cons, ih, decoder.withValue, Identifier.withValue_value]
        rfl
    exact h s.toList
  rw [decoder, entries_of_toJson, hpairs]
  change ((s.pairs.toList.mapM decoder.withValue).mapError Identifier.Invalid.fault >>= fun ids =>
    .ok (Ascending.ofList ids)) = _
  rw [hvalues]
  exact congrArg Except.ok (Ascending.ofList_toList s)

theorem toJson_numberless (s : IdentifierSet) : s.toJson.numberless := by
  apply Json.membersNumberless_iff.mpr
  intro member hmember
  obtain ⟨id, -, rfl⟩ := List.mem_map.mp hmember
  rfl

/-- The text of a set reads back. -/
@[simp] theorem decodeText_text (s : IdentifierSet) : Json.decodeText decoder s.toJson.text = .ok s :=
  Json.decodeText_text s.toJson_numberless s.decoder_toJson

end IdentifierSet

/-- The row of a user reads back as the user. -/
@[simp] theorem Table.Row.user_ofUser (u : User) : (Row.ofUser u).user = .ok u := by
  simp only [Row.user, Row.ofUser, IdentifierSet.decodeText_text, PreferenceMap.decodeText_text]
  rfl

end Herald
