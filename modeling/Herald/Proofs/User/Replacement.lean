import Herald.Proofs.User.Records

/-!
What becomes of new preferences. A store that can be reached takes them in for every key that it knows,
changes nothing else, and gives them back from then on. Only a record of which something else cannot be
read stays unread.
-/

namespace Herald

open Result

variable {key : String} {m : PreferenceMap}

/-- Why the identifiers of the row cannot be read. -/
def Table.Row.identifiersFault? (r : Table.Row) : Option Json.Fault :=
  match Json.decodeText IdentifierSet.decoder r.identifiers with
  | .error fault => some fault
  | .ok _ => none

/-- Why the identifiers of the user with this key cannot be read. A directory holds no texts. -/
def UserStore.identifiersFault? (s : UserStore) (key : String) : Option Json.Fault :=
  match s.backing with
  | .directory _ => none
  | .table rows => (rows.find? fun r => r.key == key).bind Table.Row.identifiersFault?

/-- What a look-up by key gave before the preferences of the user were replaced, and what it gives
afterwards. Preferences that could not be read are no longer in the way, but identifiers are. -/
inductive UserStore.Rereads (m : PreferenceMap) :
    (identifiersFault : Option Json.Fault) → Except UserError User → Except UserError User → Prop
  | read (u : User) : Rereads m none (.ok u) (.ok { u with preferences := m })
  | repaired (fault : Json.Fault) {u : User} (h : u.preferences = m) :
      Rereads m none (.error (.badRecord fault)) (.ok u)
  | unread (fault : Json.Fault) :
      Rereads m (some fault) (.error (.badRecord fault)) (.error (.badRecord fault))

/-- In a directory the first user with the key has other preferences, in a table every row with the key,
and that is all. -/
inductive UserStore.Updated (key : String) (m : PreferenceMap) : UserStore → UserStore → Prop
  | directory {before after : List User} {u : User} {outage : Option UserStore.Outage}
      (hbefore : key ∉ before.map User.key) (hkey : u.key = key) :
      Updated key m ⟨.directory (before ++ u :: after), outage⟩
        ⟨.directory (before ++ { u with preferences := m } :: after), outage⟩
  | table {rows : List Table.Row} {outage : Option UserStore.Outage}
      (hkey : key ∈ rows.map Table.Row.key) :
      Updated key m ⟨.table rows, outage⟩
        ⟨.table (rows.map fun r => if r.key = key then { r with preferences := m.toJson.text } else r),
          outage⟩

/-! ### Directories -/

namespace Directory

variable {users users' : Directory} {change : User → User}

theorem modify_eq_none_iff : modify key change users = none ↔ key ∉ users.map User.key := by
  induction users with
  | nil => simp [modify]
  | cons u rest ih =>
    unfold modify
    by_cases hkey : u.key = key
    · simp [hkey]
    · rw [if_neg hkey, Option.map_eq_none_iff, ih, List.map_cons, List.mem_cons, not_or]
      exact (and_iff_right (Ne.symm hkey)).symm

/-- The first user with the key is changed. -/
theorem exists_of_modify (h : modify key change users = some users') :
    ∃ before u after, users = before ++ u :: after ∧ key ∉ before.map User.key ∧ u.key = key ∧
      users' = before ++ change u :: after := by
  induction users generalizing users' with
  | nil => cases h
  | cons u rest ih =>
    unfold modify at h
    split at h
    · rename_i hkey
      cases h
      exact ⟨[], u, rest, rfl, List.not_mem_nil, hkey, rfl⟩
    · rename_i hkey
      obtain ⟨rest', hrest, rfl⟩ := Option.map_eq_some_iff.mp h
      obtain ⟨before, w, after, rfl, hbefore, hw, rfl⟩ := ih hrest
      refine ⟨u :: before, w, after, rfl, ?_, hw, rfl⟩
      rw [List.map_cons, List.mem_cons, not_or]
      exact ⟨Ne.symm hkey, hbefore⟩

theorem get_append_cons {before after : List User} {u : User} (hbefore : key ∉ before.map User.key)
    (hkey : u.key = key) : get (before ++ u :: after) key = .ok u := by
  have hnone : before.find? (fun u => u.key == key) = none := by
    rw [List.find?_eq_none]
    intro w hw hfound
    exact hbefore (beq_iff_eq.mp hfound ▸ List.mem_map_of_mem hw)
  have hfound : (u :: after).find? (fun u => u.key == key) = some u :=
    List.find?_cons_of_pos (beq_iff_eq.mpr hkey)
  rw [get, List.find?_append, hnone, Option.none_or, hfound]

end Directory

/-! ### Tables -/

namespace Table

theorem Row.rereads (r : Row) (m : PreferenceMap) :
    UserStore.Rereads m r.identifiersFault? r.user { r with preferences := m.toJson.text }.user := by
  simp only [Row.identifiersFault?, Row.user, PreferenceMap.decodeText_text]
  cases Json.decodeText IdentifierSet.decoder r.identifiers with
  | error fault => exact .unread fault
  | ok identifiers =>
    cases Json.decodeText PreferenceMap.decoder r.preferences with
    | error fault => exact .repaired fault rfl
    | ok preferences => exact .read ⟨r.key, identifiers, preferences⟩

theorem hasKey_iff {rows : Table} : rows.hasKey key ↔ key ∈ rows.map Row.key := by
  simp [hasKey]

theorem rereads_of_update {rows : Table} (h : rows.hasKey key) :
    UserStore.Rereads m ((rows.find? fun r => r.key == key).bind Row.identifiersFault?)
      (rows.get key)
      ((rows.update key fun r => { r with preferences := m.toJson.text }).get key) := by
  unfold get
  induction rows with
  | nil => cases h
  | cons r rest ih =>
    by_cases hkey : r.key = key
    · simp only [update, List.map_cons, List.find?_cons, if_pos hkey, beq_iff_eq.mpr hkey]
      exact r.rereads m
    · have hrest : hasKey rest key := by simpa [hasKey, hkey] using h
      simp only [update, List.map_cons, List.find?_cons, if_neg hkey, beq_eq_false_iff_ne.mpr hkey]
      exact ih hrest

end Table

/-! ### Stores -/

namespace UserStore

variable {s s' : UserStore} {e : UserError}

theorem isNotFound_of_reach (h : s.reach key = .error e) : e.isNotFound = false := by
  unfold reach at h
  split at h
  · split at h
    · cases h
      rfl
    · split at h
      · cases h
        rfl
      · cases h
  · cases h

theorem setPreferences_of_reach_error (h : s.reach key = .error e) (m : PreferenceMap) :
    s.setPreferences key m = .error e := by
  rw [setPreferences, h]
  rfl

theorem setPreferences_of_notMem (hreach : s.reach key = .ok ()) (hkey : key ∉ s.keys)
    (m : PreferenceMap) : s.setPreferences key m = .error (.notFound key) := by
  obtain ⟨backing, outage⟩ := s
  rw [setPreferences, hreach]
  cases backing with
  | directory users =>
    have hmodify : Directory.modify key (fun u => { u with preferences := m }) users = none :=
      Directory.modify_eq_none_iff.mpr hkey
    simp only [Directory.setPreferences, hmodify]
    rfl
  | table rows =>
    have hnone : ¬Table.hasKey rows key := fun h => hkey (Table.hasKey_iff.mp h)
    simp only [Table.setPreferences, if_neg hnone]
    rfl

theorem exists_setPreferences (hreach : s.reach key = .ok ()) (hkey : key ∈ s.keys)
    (m : PreferenceMap) : ∃ s', s.setPreferences key m = .ok s' := by
  obtain ⟨backing, outage⟩ := s
  rw [setPreferences, hreach]
  cases backing with
  | directory users =>
    have hsome : Directory.modify key (fun u => { u with preferences := m }) users ≠ none :=
      fun hnone => Directory.modify_eq_none_iff.mp hnone hkey
    obtain ⟨users', hmodify⟩ := Option.ne_none_iff_exists'.mp hsome
    simp only [Directory.setPreferences, hmodify]
    exact ⟨_, rfl⟩
  | table rows =>
    simp only [Table.setPreferences, if_pos (Table.hasKey_iff.mpr hkey)]
    exact ⟨_, rfl⟩

theorem updated_of_setPreferences (h : s.setPreferences key m = .ok s') : Updated key m s s' := by
  obtain ⟨backing, outage⟩ := s
  obtain ⟨-, -, h⟩ := bind_eq_ok.mp h
  cases backing with
  | directory users =>
    obtain ⟨users', hset, h⟩ := bind_eq_ok.mp h
    cases h
    unfold Directory.setPreferences at hset
    split at hset
    · rename_i hmodify
      cases hset
      obtain ⟨before, u, after, rfl, hbefore, hkey, rfl⟩ := Directory.exists_of_modify hmodify
      exact .directory hbefore hkey
    · cases hset
  | table rows =>
    obtain ⟨rows', hset, h⟩ := bind_eq_ok.mp h
    cases h
    unfold Table.setPreferences at hset
    split at hset
    · rename_i hkey
      cases hset
      exact .table (Table.hasKey_iff.mp hkey)
    · cases hset

theorem get_directory {users : Directory} {outage : Option Outage}
    (h : reach ⟨.directory users, outage⟩ key = .ok ()) :
    get ⟨.directory users, outage⟩ key = users.get key := by
  rw [get, h]
  rfl

theorem get_table {rows : Table} {outage : Option Outage}
    (h : reach ⟨.table rows, outage⟩ key = .ok ()) :
    get ⟨.table rows, outage⟩ key = rows.get key := by
  rw [get, h]
  rfl

theorem Updated.reach_eq (h : Updated key m s s') (argument : String) :
    s'.reach argument = s.reach argument := by
  cases h <;> rfl

/-- What was stored is what is got from then on. -/
theorem Updated.rereads (h : Updated key m s s') (hreach : s.reach key = .ok ()) :
    Rereads m (s.identifiersFault? key) (s.get key) (s'.get key) := by
  have hreach' := (h.reach_eq key).trans hreach
  cases h with
  | @directory before after u _ hbefore hkey =>
    have hget : Directory.get (before ++ { u with preferences := m } :: after) key =
        .ok { u with preferences := m } := Directory.get_append_cons hbefore hkey
    rw [get_directory hreach, get_directory hreach', Directory.get_append_cons hbefore hkey, hget]
    exact .read u
  | table hkey =>
    rw [get_table hreach, get_table hreach']
    exact Table.rereads_of_update (Table.hasKey_iff.mpr hkey)

theorem get_of_setPreferences {u : User} (h : s.setPreferences key m = .ok s')
    (hget : s.get key = .ok u) : s'.get key = .ok { u with preferences := m } := by
  obtain ⟨⟨⟩, hreach, -⟩ := bind_eq_ok.mp hget
  have hrereads := (updated_of_setPreferences h).rereads hreach
  rw [hget] at hrereads
  generalize s.identifiersFault? key = unreadable at hrereads
  generalize s'.get key = now at hrereads ⊢
  cases hrereads
  rfl

end UserStore

end Herald
