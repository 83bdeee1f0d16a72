import Herald.Proofs.User.Records
import Herald.Proofs.User.Table

/-!
Stores that are driven by the same operations. A directory and a table that start without users give
the same answers to every history of operations, and what is stored changes for one user at a time.
-/

namespace Herald

/-- What a store is asked to do. -/
inductive UserStore.Operation where
  | put (user : User)
  | setPreferences (key : String) (preferences : PreferenceMap)
  | get (key : String)
  | resolve (id : Identifier)
  | find (candidates : IdentifierSet)

/-- What a store answers. -/
inductive UserStore.Answer where
  | done (result : Except UserError Unit)
  | user (result : Except UserError User)
  /-- A search also leaves log records. -/
  | search (result : Logged (Except UserError User))

namespace UserStore

/-- The failure that an answer reports, if it does. -/
def Answer.failure? : Answer → Option UserError
  | .done result => errorOf? result
  | .user result => errorOf? result
  | .search result => errorOf? result.value
where
  /-- The error of a result, if it is one. -/
  errorOf? {α : Type} : Except UserError α → Option UserError
    | .ok _ => none
    | .error e => some e

/-- The answer to an update and the store after it, which is the old one if the update fails. -/
def settle (s : UserStore) : Except UserError UserStore → Answer × UserStore
  | .ok s' => (.done (.ok ()), s')
  | .error e => (.done (.error e), s)

/-- One operation: the answer, and the store after it. -/
def perform (s : UserStore) : Operation → Answer × UserStore
  | .put user => s.settle (s.put user)
  | .setPreferences key preferences => s.settle (s.setPreferences key preferences)
  | .get key => (.user (s.get key), s)
  | .resolve id => (.user (s.resolve id), s)
  | .find candidates => (.search (s.find candidates), s)

/-- Operations one after another: the answers in order, and the store after the last. -/
def run (s : UserStore) : List Operation → List Answer × UserStore
  | [] => ([], s)
  | operation :: rest =>
    let (answer, s) := s.perform operation
    let (answers, s) := s.run rest
    (answer :: answers, s)

/-- The users that are stored. -/
def users (s : UserStore) : Except UserError (List User) :=
  match s.backing with
  | .directory users => .ok users
  | .table rows => rows.mapM Table.Row.user

/-- Keys are unique, and an update reaches the user with its key and nobody else. Preferences for a key
that is not there are refused, and nothing changes. -/
structure UpdatesInPlace (s : UserStore) : Prop where
  keys_nodup : s.keys.Nodup
  put : ∀ user, ∃ users s', s.users = .ok users ∧ s.put user = .ok s' ∧
    s'.users = .ok (if user.key ∈ s.keys then
      users.map fun u => if u.key = user.key then user else u else users ++ [user])
  setPreferences : ∀ key preferences, key ∈ s.keys → ∃ users s', s.users = .ok users ∧
    s.setPreferences key preferences = .ok s' ∧
    s'.users = .ok (users.map fun u => if u.key = key then { u with preferences } else u)
  setPreferences_absent : ∀ key preferences, key ∉ s.keys →
    s.perform (.setPreferences key preferences) = (.done (.error (.notFound key)), s)

/-- The store keeps these users in a directory or a table, with unique keys, and all of it is within
reach. -/
structure Keeps (s : UserStore) (users : Directory) : Prop where
  unique : users.Unique
  outage : s.outage = none
  backing : s.backing = .directory users ∨ s.backing = .table (.ofDirectory users)

theorem keeps_ofUsers_nil : (ofUsers []).Keeps [] :=
  ⟨Directory.unique_nil, rfl, Or.inl rfl⟩

theorem keeps_emptyTable : emptyTable.Keeps [] :=
  ⟨Directory.unique_nil, rfl, Or.inr rfl⟩

namespace Keeps

variable {s : UserStore} {users : Directory}

theorem reach (h : s.Keeps users) (argument : String) : s.reach argument = .ok () := by
  rw [UserStore.reach, h.outage]

theorem get (h : s.Keeps users) (key : String) : s.get key = users.get key := by
  rw [UserStore.get, h.reach]
  obtain hs | hs := h.backing <;> rw [hs]
  · rfl
  · exact Table.get_ofDirectory users key

theorem resolve (h : s.Keeps users) (id : Identifier) : s.resolve id = users.resolve id := by
  rw [UserStore.resolve, h.reach]
  obtain hs | hs := h.backing <;> rw [hs]
  · rfl
  · exact Table.resolve_ofDirectory users id

theorem find (h : s.Keeps users) (candidates : IdentifierSet) :
    s.find candidates = findBy users.resolve candidates := by
  rw [UserStore.find, funext h.resolve]

theorem put (h : s.Keeps users) (user : User) :
    ∃ s', s.put user = .ok s' ∧ s'.Keeps (users.put user) := by
  have hunique := Directory.unique_put h.unique user
  rw [UserStore.put, h.reach]
  obtain hs | hs := h.backing <;> rw [hs]
  · exact ⟨_, rfl, hunique, h.outage, Or.inl rfl⟩
  · refine ⟨_, rfl, hunique, h.outage, Or.inr ?_⟩
    rw [Table.put_ofDirectory h.unique]

theorem setPreferences (h : s.Keeps users) {key : String} {preferences : PreferenceMap}
    {users' : Directory} (hset : users.setPreferences key preferences = .ok users') :
    ∃ s', s.setPreferences key preferences = .ok s' ∧ s'.Keeps users' := by
  have hunique := Directory.unique_setPreferences h.unique hset
  rw [UserStore.setPreferences, h.reach]
  obtain hs | hs := h.backing <;> rw [hs]
  · simp only [hset]
    exact ⟨_, rfl, hunique, h.outage, Or.inl rfl⟩
  · simp only [Table.setPreferences_ofDirectory h.unique, hset]
    exact ⟨_, rfl, hunique, h.outage, Or.inr rfl⟩

theorem setPreferences_error (h : s.Keeps users) {key : String} {preferences : PreferenceMap}
    {e : UserError} (hset : users.setPreferences key preferences = .error e) :
    s.setPreferences key preferences = .error e := by
  rw [UserStore.setPreferences, h.reach]
  obtain hs | hs := h.backing <;> rw [hs]
  · simp only [hset]
    rfl
  · simp only [Table.setPreferences_ofDirectory h.unique, hset]
    rfl

theorem keys (h : s.Keeps users) : s.keys = users.map User.key := by
  rw [UserStore.keys]
  obtain hs | hs := h.backing <;> rw [hs]
  exact List.map_map

theorem users_eq (h : s.Keeps users) : s.users = .ok users := by
  rw [UserStore.users]
  obtain hs | hs := h.backing <;> rw [hs]
  exact Table.mapM_user users

theorem hasKey_iff (h : s.Keeps users) (key : String) : users.hasKey key ↔ key ∈ s.keys := by
  rw [h.keys]
  simp [Directory.hasKey]

theorem updatesInPlace (h : s.Keeps users) : s.UpdatesInPlace where
  keys_nodup := h.keys ▸ h.unique
  put user := by
    obtain ⟨s', hput, hs'⟩ := h.put user
    refine ⟨users, s', h.users_eq, hput, ?_⟩
    rw [hs'.users_eq, Directory.put_eq h.unique]
    simp only [h.hasKey_iff, Directory.update]
  setPreferences key preferences hkey := by
    have hset := Directory.setPreferences_eq h.unique key preferences
    rw [if_pos ((h.hasKey_iff key).mpr hkey)] at hset
    obtain ⟨s', hset', hs'⟩ := h.setPreferences hset
    exact ⟨users, s', h.users_eq, hset', hs'.users_eq⟩
  setPreferences_absent key preferences hkey := by
    have hset := Directory.setPreferences_eq h.unique key preferences
    rw [if_neg (mt (h.hasKey_iff key).mp hkey)] at hset
    rw [perform, h.setPreferences_error hset]
    rfl

/-- Two stores of the same users give the same answer, and then keep the same users again. -/
theorem perform_agree {t : UserStore} (hs : s.Keeps users) (ht : t.Keeps users)
    (operation : Operation) :
    (s.perform operation).1 = (t.perform operation).1 ∧
      ∃ users', (s.perform operation).2.Keeps users' ∧ (t.perform operation).2.Keeps users' := by
  cases operation with
  | put user =>
    obtain ⟨s', hput, hs'⟩ := hs.put user
    obtain ⟨t', hput', ht'⟩ := ht.put user
    simp only [perform, hput, hput', settle, true_and]
    exact ⟨_, hs', ht'⟩
  | setPreferences key preferences =>
    cases hset : users.setPreferences key preferences with
    | ok users' =>
      obtain ⟨s', hset₁, hs'⟩ := hs.setPreferences hset
      obtain ⟨t', hset₂, ht'⟩ := ht.setPreferences hset
      simp only [perform, hset₁, hset₂, settle, true_and]
      exact ⟨_, hs', ht'⟩
    | error e =>
      simp only [perform, hs.setPreferences_error hset, ht.setPreferences_error hset, settle,
        true_and]
      exact ⟨users, hs, ht⟩
  | get key =>
    simp only [perform, hs.get, ht.get, true_and]
    exact ⟨users, hs, ht⟩
  | resolve id =>
    simp only [perform, hs.resolve, ht.resolve, true_and]
    exact ⟨users, hs, ht⟩
  | find candidates =>
    simp only [perform, hs.find, ht.find, true_and]
    exact ⟨users, hs, ht⟩

theorem run_agree {t : UserStore} (hs : s.Keeps users) (ht : t.Keeps users)
    (operations : List Operation) :
    (s.run operations).1 = (t.run operations).1 ∧
      ∃ users', (s.run operations).2.Keeps users' ∧ (t.run operations).2.Keeps users' := by
  induction operations generalizing s t users with
  | nil => exact ⟨rfl, users, hs, ht⟩
  | cons operation rest ih =>
    obtain ⟨hanswer, users', hs', ht'⟩ := perform_agree hs ht operation
    obtain ⟨hanswers, hlast⟩ := ih hs' ht'
    exact ⟨congrArg₂ List.cons hanswer hanswers, hlast⟩

end Keeps

/-! ### Failures -/

/-- A search fails with what a look-up failed with, or because nobody was found. -/
theorem firstResolved_error {P : UserError → Prop} {lookup : Identifier → Except UserError User}
    {sought : String} (hlookup : ∀ id e, lookup id = .error e → P e) (hnone : P (.notFound sought))
    (ids : List Identifier) {failed ambiguous : Option UserError} (hfailed : ∀ e ∈ failed, P e)
    (hambiguous : ∀ e ∈ ambiguous, P e) {e : UserError}
    (h : (firstResolved lookup sought failed ambiguous ids).value = .error e) : P e := by
  have hkeep : ∀ {slot : Option UserError} {e : UserError}, (∀ e ∈ slot, P e) → P e →
      ∀ e' ∈ slot <|> some e, P e' := by
    intro slot e hslot he e' he'
    cases slot with
    | none => exact Option.some.inj he' ▸ he
    | some kept => exact hslot e' he'
  induction ids generalizing failed ambiguous with
  | nil =>
    obtain rfl := Except.error.inj h
    cases failed with
    | some kept => exact hfailed kept rfl
    | none =>
      cases ambiguous with
      | some kept => exact hambiguous kept rfl
      | none => exact hnone
  | cons id rest ih =>
    unfold firstResolved at h
    split at h
    · cases h
    · exact ih hfailed hambiguous h
    · rename_i text count hid
      exact ih hfailed (hkeep hambiguous (hlookup id _ hid)) h
    · rename_i failure _ _ hid
      exact ih (hkeep hfailed (hlookup id failure hid)) hambiguous h

theorem isNotFound_of_single {id : Identifier} {users : List User} {e : UserError}
    (h : User.single id users = .error e) : e.isNotFound := by
  unfold User.single at h
  split at h <;> cases h <;> rfl

theorem isNotFound_of_resolve {users : Directory} {id : Identifier} {e : UserError}
    (h : users.resolve id = .error e) : e.isNotFound := by
  unfold Directory.resolve at h
  dsimp only at h
  split at h <;> exact isNotFound_of_single h

theorem isNotFound_of_get {users : Directory} {key : String} {e : UserError}
    (h : users.get key = .error e) : e.isNotFound := by
  unfold Directory.get at h
  split at h <;> cases h
  rfl

theorem isNotFound_of_find {users : Directory} {candidates : IdentifierSet} {e : UserError}
    (h : (findBy users.resolve candidates).value = .error e) : e.isNotFound :=
  firstResolved_error (P := fun e => e.isNotFound = true) (fun _ _ => isNotFound_of_resolve) rfl
    candidates.toList (by simp) (by simp) h

theorem isNotFound_of_setPreferences {users : Directory} (hunique : users.Unique) {key : String}
    {preferences : PreferenceMap} {e : UserError}
    (h : users.setPreferences key preferences = .error e) : e.isNotFound := by
  rw [Directory.setPreferences_eq hunique] at h
  split at h <;> cases h
  rfl

theorem failure?_eq_some {α : Type} {result : Except UserError α} {e : UserError}
    (h : Answer.failure?.errorOf? result = some e) : result = .error e := by
  cases result with
  | ok a => cases h
  | error e' => exact congrArg Except.error (Option.some.inj h)

namespace Keeps

variable {s : UserStore} {users : Directory}

/-- All that can fail is that nobody, or more than one user, is found. -/
theorem isNotFound_of_perform (h : s.Keeps users) {operation : Operation} {e : UserError}
    (he : (s.perform operation).1.failure? = some e) : e.isNotFound := by
  cases operation with
  | put user =>
    obtain ⟨s', hput, -⟩ := h.put user
    rw [perform, hput] at he
    cases he
  | setPreferences key preferences =>
    cases hset : users.setPreferences key preferences with
    | ok users' =>
      obtain ⟨s', hset', -⟩ := h.setPreferences hset
      rw [perform, hset'] at he
      cases he
    | error e' =>
      rw [perform, h.setPreferences_error hset] at he
      obtain rfl : e' = e := Option.some.inj he
      exact isNotFound_of_setPreferences h.unique hset
  | get key =>
    have hget := failure?_eq_some he
    rw [h.get] at hget
    exact isNotFound_of_get hget
  | resolve id =>
    have hresolve := failure?_eq_some he
    rw [h.resolve] at hresolve
    exact isNotFound_of_resolve hresolve
  | find candidates =>
    have hfind := failure?_eq_some he
    rw [h.find] at hfind
    exact isNotFound_of_find hfind

theorem isNotFound_of_run (h : s.Keeps users) (operations : List Operation) :
    ∀ answer ∈ (s.run operations).1, ∀ e, answer.failure? = some e → e.isNotFound := by
  induction operations generalizing s users with
  | nil => exact fun answer hanswer => absurd hanswer List.not_mem_nil
  | cons operation rest ih =>
    obtain ⟨-, users', hs', -⟩ := perform_agree h h operation
    exact List.forall_mem_cons.mpr ⟨fun e he => h.isNotFound_of_perform he, ih hs'⟩

end Keeps

/-! ### Histories -/

/-- A directory and a table that start without users cannot be told apart by what they answer. In both
keys stay unique and updates stay in place, and no record is ever found that cannot be decoded. -/
theorem run_directory_eq_run_table (operations : List Operation) :
    ((ofUsers []).run operations).1 = (emptyTable.run operations).1 ∧
      (∀ answer ∈ ((ofUsers []).run operations).1, ∀ fault,
        answer.failure? ≠ some (.badRecord fault)) ∧
      ((ofUsers []).run operations).2.UpdatesInPlace ∧
      (emptyTable.run operations).2.UpdatesInPlace := by
  obtain ⟨hanswers, users, hdirectory, htable⟩ :=
    keeps_ofUsers_nil.run_agree keeps_emptyTable operations
  refine ⟨hanswers, ?_, hdirectory.updatesInPlace, htable.updatesInPlace⟩
  intro answer hanswer fault hfault
  have hfailure := keeps_ofUsers_nil.isNotFound_of_run operations answer hanswer _ hfault
  cases hfailure

end UserStore

end Herald
