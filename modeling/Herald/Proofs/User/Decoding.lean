import Herald.Proofs.User.Codec
import Mathlib.Data.List.Permutation

/-!
What JSON keeps of users, and what it can bring in. Whatever is written reads back as it was; whatever
is read as a set of identifiers or a user is made of texts that passed the checks on keys and values.
-/

namespace Herald

open Result

namespace IdentifierSet

/-! ### Sets of identifiers -/

/-- The members of an object name these keys and give these texts to them, in this order. -/
inductive Spells : Json.Members → List (Identifier.Key × String) → Prop
  | done : Spells .done []
  | next {name value : String} {tail : Json.Members} {key : Identifier.Key}
      {pairs : List (Identifier.Key × String)} (hname : Identifier.Key.parse name = .ok key)
      (hrest : Spells tail pairs) :
      Spells (.next (some name) (.string (some value)) tail) ((key, value) :: pairs)

/-- The text given to a key last. -/
def lastText (pairs : List (Identifier.Key × String)) (k : Identifier.Key) : Option String :=
  (pairs.reverse.find? fun pair => pair.1 = k).map Prod.snd

/-- The set is what an object spells: each key has the text given to it last. -/
def DrawnFrom (s : IdentifierSet) (t : Json.Tree) : Prop :=
  ∃ members pairs, t = .object members ∧ Spells members pairs ∧
    ∀ k, (s.get? k).map Identifier.value = lastText pairs k

variable {s : IdentifierSet} {t : Json.Tree} {members : Json.Members}
  {entries entries' : Ascending (Identifier.Key × String) Prod.fst}
  {pairs : List (Identifier.Key × String)} {k : Identifier.Key}

theorem readMember_eq_ok_iff {name : String} :
    readMember entries name t = .ok entries' ↔ ∃ key value, Identifier.Key.parse name = .ok key ∧
      t = .string (some value) ∧ entries' = entries.insert (key, value) := by
  have hparse : ∀ key, Identifier.Key.ofText name = .ok key ↔ Identifier.Key.parse name = .ok key :=
    fun key => mapError_eq_ok
  unfold readMember
  simp only [bind_eq_ok, hparse, Json.Decoder.string_eq_ok_iff, Except.ok.injEq]
  constructor
  · rintro ⟨key, hkey, value, ht, rfl⟩
    exact ⟨key, value, hkey, ht, rfl⟩
  · rintro ⟨key, value, hkey, ht, rfl⟩
    exact ⟨key, hkey, value, ht, rfl⟩

theorem members_of_spells (h : Spells members pairs)
    (entries : Ascending (Identifier.Key × String) Prod.fst) :
    Json.Decoder.members readMember entries members = .ok (entries.insertAll pairs) := by
  induction h generalizing entries with
  | done => rfl
  | next hname _ ih =>
    rw [Json.Decoder.members, readMember_eq_ok_iff.mpr ⟨_, _, hname, rfl, rfl⟩]
    exact ih _

theorem exists_spells (h : Json.Decoder.members readMember entries members = .ok entries') :
    ∃ pairs, Spells members pairs ∧ entries' = entries.insertAll pairs := by
  fun_induction Json.Decoder.members readMember entries members with
  | case1 =>
    cases h
    exact ⟨[], .done, rfl⟩
  | case2 => cases h
  | case3 => cases h
  | case4 entries name value tail ih =>
    obtain ⟨next, hmember, hrest⟩ := bind_eq_ok.mp h
    obtain ⟨key, text, hname, rfl, rfl⟩ := readMember_eq_ok_iff.mp hmember
    obtain ⟨pairs, hpairs, rfl⟩ := ih _ hrest
    exact ⟨(key, text) :: pairs, .next hname hpairs, rfl⟩

/-- Values are checked one by one, and each stays with its key. -/
theorem mapM_withValue_eq_ok_iff {ids : List Identifier} :
    pairs.mapM decoder.withValue = .ok ids ↔ pairs = ids.map fun id => (id.key, id.value) := by
  induction pairs generalizing ids with
  | nil =>
    constructor
    · intro h
      cases h
      rfl
    · intro h
      rw [List.map_eq_nil_iff.mp h.symm]
      rfl
  | cons pair pairs ih =>
    obtain ⟨key, value⟩ := pair
    have hvalue : ∀ id, decoder.withValue (key, value) = .ok id ↔ id.key = key ∧ id.value = value :=
      fun id => Identifier.Key.withValue_eq_ok_iff
    simp only [List.mapM_cons, bind_eq_ok, hvalue, ih]
    constructor
    · rintro ⟨id, ⟨rfl, rfl⟩, rest, rfl, h⟩
      cases h
      rfl
    · intro h
      obtain ⟨id, rest, rfl, hid, hrest⟩ := List.map_eq_cons_iff.mp h.symm
      cases hid
      exact ⟨id, ⟨rfl, rfl⟩, rest, hrest.symm, rfl⟩

theorem lookup?_pairs (s : IdentifierSet) (k : Identifier.Key) :
    s.pairs.lookup? k = (s.get? k).map fun id => (id.key, id.value) :=
  List.find?_map ..

theorem lookup?_ofList (pairs : List (Identifier.Key × String)) (k : Identifier.Key) :
    ((Ascending.ofList pairs : Ascending _ Prod.fst).lookup? k).map Prod.snd = lastText pairs k := by
  rw [Ascending.ofList, Ascending.lookup?_insertAll, Ascending.lookup?_empty, Option.or_none]
  rfl

/-- Sets are compared with what was read key by key. -/
theorem pairs_eq_ofList_iff :
    s.pairs = Ascending.ofList pairs ↔ ∀ k, (s.get? k).map Identifier.value = lastText pairs k := by
  have hvalue : ∀ k, (s.pairs.lookup? k).map Prod.snd = (s.get? k).map Identifier.value := by
    intro k
    rw [lookup?_pairs, Option.map_map]
    rfl
  constructor
  · intro h k
    rw [← hvalue, h, lookup?_ofList]
  · intro h
    apply Ascending.ext_of_lookup?
    intro k
    have hk := h k
    rw [← hvalue, ← lookup?_ofList] at hk
    cases hs : s.pairs.lookup? k with
    | none =>
      rw [hs] at hk
      exact (Option.map_eq_none_iff.mp hk.symm).symm
    | some pair =>
      rw [hs] at hk
      obtain ⟨other, hother, hsnd⟩ := Option.map_eq_some_iff.mp hk.symm
      have hfst := (Ascending.key_of_lookup? hother).trans (Ascending.key_of_lookup? hs).symm
      rw [hother, Prod.ext hfst hsnd]

/-- The set of the entries of an ascending list has these entries. -/
theorem pairs_ofList {ids : List Identifier}
    (h : entries.toList = ids.map fun id => (id.key, id.value)) :
    IdentifierSet.pairs (Ascending.ofList ids) = entries := by
  have hascending : ids.Pairwise fun a b => compare a.key b.key = .lt := by
    have := entries.ascending
    rw [h, List.pairwise_map] at this
    exact this
  have hids : Ascending.ofList ids = (⟨ids, hascending⟩ : IdentifierSet) :=
    Ascending.ofList_toList ⟨ids, hascending⟩
  rw [hids]
  exact Ascending.ext h.symm

theorem decoder_eq_ok_iff_pairs :
    decoder t = .ok s ↔ Json.Decoder.mapping ∅ readMember t = .ok s.pairs := by
  unfold decoder
  rw [bind_eq_ok]
  simp only [bind_eq_ok, mapError_eq_ok, mapM_withValue_eq_ok_iff, Except.ok.injEq]
  constructor
  · rintro ⟨entries, hentries, ids, hids, rfl⟩
    rw [hentries, pairs_ofList hids]
  · intro h
    exact ⟨s.pairs, h, s.toList, rfl, Ascending.ofList_toList s⟩

/-- A set is read exactly from what spells it. -/
theorem decoder_eq_ok_iff : decoder t = .ok s ↔ s.DrawnFrom t := by
  rw [decoder_eq_ok_iff_pairs]
  constructor
  · intro h
    cases t with
    | object members =>
      obtain ⟨pairs, hspells, hs⟩ := exists_spells h
      exact ⟨members, pairs, rfl, hspells, pairs_eq_ofList_iff.mp hs⟩
    | _ => cases h
  · rintro ⟨members, pairs, rfl, hspells, hlast⟩
    rw [pairs_eq_ofList_iff.mpr hlast]
    exact members_of_spells hspells ∅

/-- What is spelled can be read unless some key was last given the empty text. -/
theorem exists_decoder_eq_ok_iff (t : Json.Tree) : (∃ s, decoder t = .ok s) ↔
    ∃ members pairs, t = .object members ∧ Spells members pairs ∧ ∀ k, lastText pairs k ≠ some "" := by
  constructor
  · rintro ⟨s, h⟩
    obtain ⟨members, pairs, ht, hspells, hlast⟩ := decoder_eq_ok_iff.mp h
    refine ⟨members, pairs, ht, hspells, fun k hk => ?_⟩
    rw [← hlast k] at hk
    obtain ⟨id, -, hid⟩ := Option.map_eq_some_iff.mp hk
    exact id.value_ne_empty hid
  · rintro ⟨members, pairs, rfl, hspells, hlast⟩
    have hvalue : ∀ pair ∈ (Ascending.ofList pairs : Ascending _ Prod.fst).toList, pair.2 ≠ "" := by
      intro pair hpair hempty
      apply hlast pair.1
      rw [← lookup?_ofList, Ascending.lookup?_eq_some_iff.mpr ⟨hpair, rfl⟩, Option.map_some, hempty]
    -- Entries that pass the check on values are those of some identifiers.
    have hids : ∃ ids : List Identifier, (Ascending.ofList pairs : Ascending _ Prod.fst).toList =
        ids.map fun id => (id.key, id.value) := by
      refine ⟨(Ascending.ofList pairs : Ascending _ Prod.fst).toList.attach.map fun pair =>
        ⟨pair.1.1, pair.1.2, hvalue pair.1 pair.2⟩, ?_⟩
      rw [List.map_map]
      exact (List.attach_map_subtype_val _).symm
    obtain ⟨ids, hids⟩ := hids
    refine ⟨Ascending.ofList ids, decoder_eq_ok_iff_pairs.mpr ?_⟩
    rw [pairs_ofList hids]
    exact members_of_spells hspells ∅

theorem mem_valuesOf_of_spells (h : Spells members pairs) {key : Identifier.Key} {value : String}
    (hpair : (key, value) ∈ pairs) : .string (some value) ∈ members.valuesOf key.text := by
  induction h with
  | done => cases hpair
  | next hname _ ih =>
    rw [Json.Members.valuesOf, Identifier.Key.parse_eq_ok_iff.mp hname]
    rcases List.mem_cons.mp hpair with heq | hrest
    · cases heq
      simp
    · have := ih hrest
      split
      · exact List.mem_cons_of_mem _ this
      · exact this

/-- The set was read from an object, and every identifier of it is what `name:value` spells for a member
of that object. -/
structure Checked (s : IdentifierSet) (t : Json.Tree) : Prop where
  drawn : s.DrawnFrom t
  spelled : ∀ id ∈ s.toList, ∃ members name, t = .object members ∧
    .string (some id.value) ∈ members.valuesOf name ∧
    Identifier.parse (name ++ ":" ++ id.value) = .ok id
  made : ∀ id ∈ s.toList, Identifier.make id.key.space id.key.kind id.value = .ok id
  distinct : (s.toList.map Identifier.key).Nodup

theorem DrawnFrom.mem_valuesOf (h : s.DrawnFrom (.object members)) {id : Identifier}
    (hid : id ∈ s.toList) : .string (some id.value) ∈ members.valuesOf id.key.text := by
  obtain ⟨_, pairs, heq, hspells, hlast⟩ := h
  cases heq
  have hk := hlast id.key
  rw [get?_eq_some_iff.mpr ⟨hid, rfl⟩] at hk
  obtain ⟨⟨key, value⟩, hfind, hvalue⟩ := Option.map_eq_some_iff.mp hk.symm
  have hkey : key = id.key := by simpa using List.find?_some hfind
  cases hkey
  cases hvalue
  exact mem_valuesOf_of_spells hspells (List.mem_reverse.mp (List.mem_of_find?_eq_some hfind))

theorem DrawnFrom.checked (h : s.DrawnFrom t) : s.Checked t where
  drawn := h
  spelled id hid := by
    have hdrawn := h
    obtain ⟨members, -, rfl, -⟩ := hdrawn
    exact ⟨members, id.key.text, rfl, h.mem_valuesOf hid, Identifier.parse_eq_ok_iff.mpr rfl⟩
  made id _ := Identifier.make_eq_ok_iff.mpr ⟨rfl, rfl, rfl⟩
  distinct := by
    apply List.pairwise_map.mpr
    exact s.ascending.imp Ascending.keys_ne_of_lt

end IdentifierSet

namespace User

/-! ### Users -/

/-- The members of a user as an object. -/
def members (u : User) : List (String × Json) :=
  [("identifiers", u.identifiers.toJson), ("key", .string u.key),
    ("preferences", u.preferences.toJson)]

section Members

variable {d : Draft} {tail : Json.Members}

theorem members_key (h : d.key = none) (key : String) :
    Json.Decoder.members Draft.assign d (.next (some "key") (.string (some key)) tail) =
      Json.Decoder.members Draft.assign { d with key := some key } tail := by
  simp only [Json.Decoder.members, Draft.assign, Json.once, h]
  rfl

theorem members_identifiers (h : d.identifiers = none) (s : IdentifierSet) :
    Json.Decoder.members Draft.assign d (.next (some "identifiers") s.toJson.toTree tail) =
      Json.Decoder.members Draft.assign { d with identifiers := some s } tail := by
  simp only [Json.Decoder.members, Draft.assign, Json.once, h, s.decoder_toJson]
  rfl

theorem members_preferences (h : d.preferences = none) (m : PreferenceMap) :
    Json.Decoder.members Draft.assign d (.next (some "preferences") m.toJson.toTree tail) =
      Json.Decoder.members Draft.assign { d with preferences := some m } tail := by
  simp only [Json.Decoder.members, Draft.assign, Json.once, h, m.decoder_toJson]
  rfl

end Members

/-- The members of a user may stand in any order. -/
theorem decoder_object (u : User) {members : List (String × Json)} (h : members.Perm u.members) :
    decoder (Json.object members).toTree = .ok u := by
  have hread : Json.Decoder.members Draft.assign {} (Json.membersOf members) =
      .ok ⟨some u.key, some u.identifiers, some u.preferences⟩ := by
    have hmembers := List.mem_permutations'.mpr h
    simp [User.members, List.permutations'] at hmembers
    rcases hmembers with rfl | rfl | rfl | rfl | rfl | rfl
    all_goals
      simp only [Json.membersOf, Json.toTree, members_key, members_identifiers, members_preferences]
      rfl
  change (Json.Decoder.members Draft.assign {} (Json.membersOf members) >>= _) = _
  rw [hread]
  rfl

/-- A user may be written as an array of the fields in order. -/
theorem decoder_array (u : User) :
    decoder (Json.array [.string u.key, u.identifiers.toJson, u.preferences.toJson]).toTree = .ok u := by
  simp only [decoder, record, Json.Record.read, Json.toTree, Json.itemsOf, Json.Record.ofItems,
    Draft.assign, Json.once, u.identifiers.decoder_toJson, u.preferences.decoder_toJson]
  rfl

/-- What draft `d'` has beyond `d` are the values given to its fields. -/
structure Draft.Gains (d d' : Draft) (given : String → List Json.Tree) : Prop where
  key : d'.key.toList.map .ok = d.key.toList.map .ok ++ (given "key").map Json.Decoder.string
  identifiers : d'.identifiers.toList.map .ok =
    d.identifiers.toList.map .ok ++ (given "identifiers").map IdentifierSet.decoder
  preferences : d'.preferences.toList.map .ok =
    d.preferences.toList.map .ok ++ (given "preferences").map PreferenceMap.decoder

namespace Draft.Gains

variable {d d' d'' : Draft} {given given' : String → List Json.Tree}

theorem refl (d : Draft) : d.Gains d fun _ => [] where
  key := by simp
  identifiers := by simp
  preferences := by simp

theorem trans (h : d.Gains d' given) (h' : d'.Gains d'' given') :
    d.Gains d'' fun name => given name ++ given' name where
  key := by simp [h'.key, h.key]
  identifiers := by simp [h'.identifiers, h.identifiers]
  preferences := by simp [h'.preferences, h.preferences]

theorem of_assign {name : String} {t : Json.Tree} (h : d.assign name t = .ok d') :
    d.Gains d' fun field => if name = field then [t] else [] := by
  unfold Draft.assign at h
  split at h
  · obtain ⟨slot, hslot, h⟩ := bind_eq_ok.mp h
    obtain ⟨hnone, key, hkey, rfl⟩ := Json.once_eq_ok_iff.mp hslot
    cases h
    constructor <;> simp [hnone, hkey]
  · obtain ⟨slot, hslot, h⟩ := bind_eq_ok.mp h
    obtain ⟨hnone, s, hs, rfl⟩ := Json.once_eq_ok_iff.mp hslot
    cases h
    constructor <;> simp [hnone, hs]
  · obtain ⟨slot, hslot, h⟩ := bind_eq_ok.mp h
    obtain ⟨hnone, m, hm, rfl⟩ := Json.once_eq_ok_iff.mp hslot
    cases h
    constructor <;> simp [hnone, hm]
  · rename_i hkey hidentifiers hpreferences
    obtain ⟨-, -, h⟩ := bind_eq_ok.mp h
    cases h
    constructor
    · simp [show name ≠ "key" from hkey]
    · simp [show name ≠ "identifiers" from hidentifiers]
    · simp [show name ≠ "preferences" from hpreferences]

theorem of_members {members : Json.Members}
    (h : Json.Decoder.members Draft.assign d members = .ok d') :
    d.Gains d' fun name => members.valuesOf name := by
  fun_induction Json.Decoder.members Draft.assign d members with
  | case1 d =>
    cases h
    exact refl _
  | case2 => cases h
  | case3 => cases h
  | case4 d name value tail ih =>
    obtain ⟨next, hassign, hrest⟩ := bind_eq_ok.mp h
    have hgains := (of_assign hassign).trans (ih next hrest)
    convert hgains using 2 with field
    rw [Json.Members.valuesOf]
    split <;> rfl

theorem of_items {total length : Nat} {fields : List Json.Field} {items : Json.Items}
    (h : record.ofItems total length fields d items = .ok d') :
    d.Gains d' fun name => items.valuesOf name fields := by
  fun_induction Json.Record.ofItems record total length fields d items with
  | case1 => cases h
  | case2 length d =>
    cases h
    exact refl _
  | case3 => cases h
  | case4 length field fields d hlack ih =>
    have hgains := ih h
    simp only [Json.Items.valuesOf_done] at hgains ⊢
    exact hgains
  | case5 => cases h
  | case6 length d field fields head tail ih =>
    obtain ⟨next, hassign, hrest⟩ := bind_eq_ok.mp h
    have hgains := (of_assign hassign).trans (ih next hrest)
    convert hgains using 2 with name
    rw [Json.Items.valuesOf]
    split <;> rfl

end Draft.Gains

/-- The user is made of the values given to the three fields; two of them may lack theirs. -/
structure DrawnFrom (u : User) (t : Json.Tree) : Prop where
  key : record.given "key" t = [.string (some u.key)]
  identifiers : record.given "identifiers" t = [] ∧ u.identifiers = ∅ ∨
    ∃ value, record.given "identifiers" t = [value] ∧ u.identifiers.Checked value
  preferences : record.given "preferences" t = [] ∧ u.preferences = ∅ ∨
    ∃ value, record.given "preferences" t = [value] ∧ PreferenceMap.decoder value = .ok u.preferences

theorem drawnFrom_of_decoder {t : Json.Tree} {u : User} (h : decoder t = .ok u) : u.DrawnFrom t := by
  obtain ⟨d, hd, h⟩ := bind_eq_ok.mp h
  obtain ⟨key, hkey, h⟩ := bind_eq_ok.mp h
  cases h
  have hgains : Draft.Gains {} d fun name => record.given name t := by
    cases t with
    | object members => exact .of_members hd
    | array items => exact .of_items hd
    | _ => cases hd
  constructor
  · have hslot := hgains.key
    rw [Json.required_eq_ok_iff.mp hkey] at hslot
    obtain ⟨value, hgiven, hvalue⟩ := List.map_eq_singleton_iff.mp hslot.symm
    rw [hgiven, Json.Decoder.string_eq_ok_iff.mp hvalue]
  · have hslot := hgains.identifiers
    cases hs : d.identifiers with
    | none =>
      rw [hs] at hslot
      exact .inl ⟨List.map_eq_nil_iff.mp hslot.symm, rfl⟩
    | some s =>
      rw [hs] at hslot
      obtain ⟨value, hgiven, hvalue⟩ := List.map_eq_singleton_iff.mp hslot.symm
      exact .inr ⟨value, hgiven, (IdentifierSet.decoder_eq_ok_iff.mp hvalue).checked⟩
  · have hslot := hgains.preferences
    cases hm : d.preferences with
    | none =>
      rw [hm] at hslot
      exact .inl ⟨List.map_eq_nil_iff.mp hslot.symm, rfl⟩
    | some m =>
      rw [hm] at hslot
      obtain ⟨value, hgiven, hvalue⟩ := List.map_eq_singleton_iff.mp hslot.symm
      exact .inr ⟨value, hgiven, hvalue⟩

end User

/-! ### What JSON keeps, and what it can bring in -/

namespace User

theorem readsBack_object (u : User) {members : List (String × Json)} (h : members.Perm u.members) :
    Json.ReadsBack decoder (.object members) u := by
  refine .of_numberless (Json.membersNumberless_iff.mpr ?_) (u.decoder_object h)
  intro member hmember
  have hmember := h.mem_iff.mp hmember
  simp only [User.members, List.mem_cons, List.not_mem_nil, or_false] at hmember
  rcases hmember with rfl | rfl | rfl
  · exact u.identifiers.toJson_numberless
  · rfl
  · exact u.preferences.toJson_numberless

theorem readsBack_array (u : User) : Json.ReadsBack decoder
    (.array [.string u.key, u.identifiers.toJson, u.preferences.toJson]) u := by
  refine .of_numberless (Json.itemsNumberless_iff.mpr ?_) u.decoder_array
  intro item hitem
  simp only [List.mem_cons, List.not_mem_nil, or_false] at hitem
  rcases hitem with rfl | rfl | rfl
  · rfl
  · exact u.identifiers.toJson_numberless
  · exact u.preferences.toJson_numberless

/-- What is written of users reads back, and all that is read has passed the checks. -/
theorem json_keeps_users :
    (∀ (u : User) (members : List (String × Json)), members.Perm u.members →
      Json.ReadsBack decoder (.object members) u) ∧
    (∀ u : User, Json.ReadsBack decoder
      (.array [.string u.key, u.identifiers.toJson, u.preferences.toJson]) u) ∧
    (∀ s : IdentifierSet, Json.ReadsBack IdentifierSet.decoder s.toJson s) ∧
    (∀ m : PreferenceMap, Json.ReadsBack PreferenceMap.decoder m.toJson m) ∧
    (∀ t : Json.Tree, (∃ s, IdentifierSet.decoder t = .ok s) ↔ ∃ members pairs, t = .object members ∧
      IdentifierSet.Spells members pairs ∧ ∀ k, IdentifierSet.lastText pairs k ≠ some "") ∧
    Json.ReadsOnly IdentifierSet.decoder IdentifierSet.Checked ∧
    Json.ReadsOnly decoder DrawnFrom :=
  ⟨fun u _ h => u.readsBack_object h, readsBack_array,
    fun s => .of_numberless s.toJson_numberless s.decoder_toJson,
    fun m => .of_numberless m.toJson_numberless m.decoder_toJson,
    IdentifierSet.exists_decoder_eq_ok_iff,
    .of_decode fun _ _ h => (IdentifierSet.decoder_eq_ok_iff.mp h).checked,
    .of_decode fun _ _ h => drawnFrom_of_decoder h⟩

/-- A user with quotes, a backslash and a null character in the key, and an event type without entries,
written in another order. -/
theorem json_keeps_users_sample :
    Json.ReadsBack decoder
      (.object [("key", .string "a\x00\"\\"), ("identifiers", .object []),
        ("preferences", .object [("push", .object [])])])
      ⟨"a\x00\"\\", ∅, Dictionary.set ∅ "push" ∅⟩ :=
  json_keeps_users.1 ⟨"a\x00\"\\", ∅, Dictionary.set ∅ "push" ∅⟩ _ (List.Perm.swap ..)

end User

end Herald
