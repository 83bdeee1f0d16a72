import Herald.Proofs.Result
import Herald.Proofs.User.Codec
import Herald.Proofs.User.Directory
import Herald.User.Store

/-!
The users that a store holds, whatever else its rows may hold. Whoever is looked up is among them, and
new preferences reach the user they are for and leave all others as they were.
-/

namespace Herald

open Result

/-- Where keys are unique, a search by the key of an element finds the element. -/
theorem find?_key_of_nodup {α : Type} {key : α → String} {xs : List α} {a : α}
    (h : (xs.map key).Nodup) (ha : a ∈ xs) : xs.find? (fun x => key x == key a) = some a := by
  induction xs with
  | nil => cases ha
  | cons x rest ih =>
    rw [List.map_cons, List.nodup_cons] at h
    rcases List.mem_cons.mp ha with rfl | ha
    · simp
    · have hne : key x ≠ key a := fun heq => h.1 (heq ▸ List.mem_map_of_mem ha)
      rw [List.find?_cons_of_neg (by simpa using hne), ih h.2 ha]

theorem User.eq_of_single {id : Identifier} {users : List User} {u : User}
    (h : User.single id users = .ok u) : users = [u] := by
  unfold User.single at h
  split at h
  · cases h
  · cases h
    rfl
  · cases h

namespace Directory

variable {users : Directory} {u : User}

theorem mem_of_resolve {id : Identifier} (h : users.resolve id = .ok u) : u ∈ users := by
  unfold resolve at h
  dsimp only at h
  split at h
  all_goals
    have hmem := User.eq_of_single h ▸ List.mem_singleton_self u
    exact (List.mem_filter.mp hmem).1

theorem get_of_mem (h : users.Unique) (hu : u ∈ users) : users.get u.key = .ok u := by
  rw [get, find?_key_of_nodup h hu]

/-- New preferences are those of the user with the key, and the only change. -/
theorem mem_of_setPreferences {key : String} {preferences : PreferenceMap} {users' : Directory}
    (hunique : users.Unique) (h : users.setPreferences key preferences = .ok users')
    (hu : u ∈ users') :
    if u.key = key then u.preferences = preferences else u ∈ users := by
  rw [setPreferences_eq hunique] at h
  split at h
  · cases h
    obtain ⟨v, hv, rfl⟩ := List.mem_map.mp hu
    by_cases hkey : v.key = key
    · simp [hkey]
    · simp [hkey, hv]
  · cases h

end Directory

namespace Table

variable {rows : Table} {u : User}

theorem mem_of_search {column : Row → String} {asked : Option String → Bool} {text : String}
    {found : Table} (h : search column asked text rows = .ok found) : ∀ r ∈ found, r ∈ rows := by
  induction rows generalizing found with
  | nil =>
    cases h
    simp
  | cons r rest ih =>
    unfold search at h
    obtain ⟨texts, -, h⟩ := bind_eq_ok.mp h
    obtain ⟨more, hmore, h⟩ := bind_eq_ok.mp h
    cases h
    intro x hx
    split at hx
    · rcases List.mem_cons.mp hx with rfl | hx
      · exact List.mem_cons_self
      · exact List.mem_cons_of_mem r (ih hmore x hx)
    · exact List.mem_cons_of_mem r (ih hmore x hx)

theorem mem_of_mapM_search {column : Row → String} {asked : Option String → Bool} {text : String}
    {id : Identifier}
    (h : (do (← search column asked text rows).mapM Row.user) >>= User.single id = .ok u) :
    ∃ r ∈ rows, r.user = .ok u := by
  obtain ⟨users, husers, hsingle⟩ := bind_eq_ok.mp h
  obtain ⟨found, hfound, hmap⟩ := bind_eq_ok.mp husers
  rw [User.eq_of_single hsingle] at hmap
  obtain ⟨r, hr, huser⟩ := mem_of_mapM_eq_ok hmap u (List.mem_singleton_self u)
  exact ⟨r, mem_of_search hfound r hr, huser⟩

theorem exists_row_of_resolve {id : Identifier} (h : rows.resolve id = .ok u) :
    ∃ r ∈ rows, r.user = .ok u := by
  unfold resolve at h
  obtain ⟨exact', hexact, h⟩ := bind_eq_ok.mp h
  split at h
  · exact mem_of_mapM_search h
  · exact mem_of_mapM_search (bind_eq_ok.mpr ⟨exact', hexact, h⟩)

theorem key_of_user {r : Row} (h : r.user = .ok u) : u.key = r.key := by
  unfold Row.user at h
  obtain ⟨identifiers, -, h⟩ := bind_eq_ok.mp h
  obtain ⟨preferences, -, h⟩ := bind_eq_ok.mp h
  cases h
  rfl

theorem get_of_mem (h : (rows.map Row.key).Nodup) {r : Row} (hr : r ∈ rows) (hu : r.user = .ok u) :
    rows.get u.key = .ok u := by
  rw [get, key_of_user hu, find?_key_of_nodup h hr]
  exact hu

theorem preferences_of_user {r : Row} {preferences : PreferenceMap}
    (h : Row.user { r with preferences := preferences.toJson.text } = .ok u) :
    u.preferences = preferences := by
  unfold Row.user at h
  obtain ⟨identifiers, -, h⟩ := bind_eq_ok.mp h
  rw [PreferenceMap.decodeText_text] at h
  cases h
  rfl

theorem exists_row_of_setPreferences {key : String} {preferences : PreferenceMap} {rows' : Table}
    (h : rows.setPreferences key preferences = .ok rows') {r' : Row} (hr' : r' ∈ rows')
    (hu : r'.user = .ok u) :
    if u.key = key then u.preferences = preferences else ∃ r ∈ rows, r.user = .ok u := by
  unfold setPreferences at h
  split at h
  · cases h
    obtain ⟨r, hr, rfl⟩ := List.mem_map.mp hr'
    by_cases hkey : r.key = key
    · rw [if_pos hkey] at hu
      rw [if_pos ((key_of_user hu).trans hkey)]
      exact preferences_of_user hu
    · rw [if_neg hkey] at hu
      rw [if_neg ((key_of_user hu).trans_ne hkey)]
      exact ⟨r, hr, hu⟩
  · cases h

theorem map_key_setPreferences {key : String} {preferences : PreferenceMap} {rows' : Table}
    (h : rows.setPreferences key preferences = .ok rows') :
    rows'.map Row.key = rows.map Row.key := by
  unfold setPreferences at h
  split at h
  · cases h
    rw [update, List.map_map]
    apply List.map_congr_left
    intro r _
    rw [Function.comp_apply]
    split <;> rfl
  · cases h

end Table

namespace UserStore

variable {s s' : UserStore} {u : User} {key : String} {preferences : PreferenceMap}

/-- The keys of the users that are stored. -/
def keys (s : UserStore) : List String :=
  match s.backing with
  | .directory users => users.map User.key
  | .table rows => rows.map Table.Row.key

/-- The store holds this user. -/
def Holds (s : UserStore) (u : User) : Prop :=
  match s.backing with
  | .directory users => u ∈ users
  | .table rows => ∃ r ∈ rows, r.user = .ok u

theorem holds_of_resolve {id : Identifier} (h : s.resolve id = .ok u) : s.Holds u := by
  unfold resolve at h
  obtain ⟨-, -, h⟩ := bind_eq_ok.mp h
  unfold Holds
  cases hbacking : s.backing with
  | directory users =>
    rw [hbacking] at h
    exact Directory.mem_of_resolve h
  | table rows =>
    rw [hbacking] at h
    exact Table.exists_row_of_resolve h

/-- A search gives a user that one of its look-ups gave. -/
theorem exists_lookup_of_firstResolved {lookup : Identifier → Except UserError User}
    {sought : String} (ids : List Identifier) {failed ambiguous : Option UserError}
    (h : (firstResolved lookup sought failed ambiguous ids).value = .ok u) :
    ∃ id ∈ ids, lookup id = .ok u := by
  induction ids generalizing failed ambiguous with
  | nil => cases h
  | cons id rest ih =>
    have hrest : ∀ {failed ambiguous : Option UserError},
        (firstResolved lookup sought failed ambiguous rest).value = .ok u →
          ∃ id' ∈ id :: rest, lookup id' = .ok u := by
      intro failed ambiguous h
      obtain ⟨id', hid', hlookup⟩ := ih h
      exact ⟨id', List.mem_cons_of_mem id hid', hlookup⟩
    unfold firstResolved at h
    split at h
    · rename_i user hlookup
      cases h
      exact ⟨id, List.mem_cons_self, hlookup⟩
    · exact hrest h
    · exact hrest h
    · exact hrest h

theorem exists_resolve_of_find {candidates : IdentifierSet}
    (h : (s.find candidates).value = .ok u) :
    ∃ id ∈ candidates.toList, s.resolve id = .ok u :=
  exists_lookup_of_firstResolved candidates.toList h

theorem holds_of_find {candidates : IdentifierSet} (h : (s.find candidates).value = .ok u) :
    s.Holds u := by
  obtain ⟨id, -, hresolve⟩ := exists_resolve_of_find h
  exact holds_of_resolve hresolve

/-- A user that the store holds is found by key. -/
theorem get_of_holds (hunique : s.keys.Nodup) (hreach : s.reach u.key = .ok ()) (h : s.Holds u) :
    s.get u.key = .ok u := by
  unfold keys at hunique
  unfold Holds at h
  unfold get
  rw [hreach]
  cases hbacking : s.backing with
  | directory users =>
    rw [hbacking] at hunique h
    exact Directory.get_of_mem hunique h
  | table rows =>
    rw [hbacking] at hunique h
    obtain ⟨r, hr, hu⟩ := h
    exact Table.get_of_mem hunique hr hu

/-- The new preferences count for the user with the key, and the only change is theirs. -/
theorem holds_of_setPreferences (hunique : s.keys.Nodup)
    (h : s.setPreferences key preferences = .ok s') (hu : s'.Holds u) :
    if u.key = key then u.preferences = preferences else s.Holds u := by
  unfold setPreferences at h
  obtain ⟨-, -, h⟩ := bind_eq_ok.mp h
  unfold keys at hunique
  unfold Holds
  cases hbacking : s.backing with
  | directory users =>
    rw [hbacking] at hunique h
    obtain ⟨users', hset, h⟩ := bind_eq_ok.mp h
    cases h
    exact Directory.mem_of_setPreferences hunique hset hu
  | table rows =>
    rw [hbacking] at h
    obtain ⟨rows', hset, h⟩ := bind_eq_ok.mp h
    cases h
    obtain ⟨r', hr', hu'⟩ := hu
    exact Table.exists_row_of_setPreferences hset hr' hu'

theorem keys_setPreferences (hunique : s.keys.Nodup)
    (h : s.setPreferences key preferences = .ok s') : s'.keys = s.keys := by
  unfold setPreferences at h
  obtain ⟨-, -, h⟩ := bind_eq_ok.mp h
  unfold keys at hunique ⊢
  cases hbacking : s.backing with
  | directory users =>
    rw [hbacking] at hunique h
    obtain ⟨users', hset, h⟩ := bind_eq_ok.mp h
    cases h
    rw [Directory.setPreferences_eq hunique] at hset
    split at hset
    · cases hset
      exact Directory.map_key_update fun _ hkey => hkey
    · cases hset
  | table rows =>
    rw [hbacking] at h
    obtain ⟨rows', hset, h⟩ := bind_eq_ok.mp h
    cases h
    exact Table.map_key_setPreferences hset

end UserStore

end Herald
