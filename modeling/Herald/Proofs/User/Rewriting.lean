import Herald.Proofs.User.Replacement
import Mathlib.Data.List.Forall2

/-!
Stores before and after preferences were replaced. Users keep their places, keys and identifiers, and only
some of them may have other preferences, so everybody is found as before.
-/

namespace Herald

open Result

variable {may : String → Prop}

/-- The same user, with other preferences only if the key may have them replaced. -/
structure User.Rewritten (may : String → Prop) (u u' : User) : Prop where
  key : u'.key = u.key
  identifiers : u'.identifiers = u.identifiers
  preferences : ¬may u.key → u'.preferences = u.preferences

/-- The same row, with other preferences only if the key may have them replaced. -/
structure Table.Row.Rewritten (may : String → Prop) (r r' : Table.Row) : Prop where
  key : r'.key = r.key
  identifiers : r'.identifiers = r.identifiers
  emails : r'.emails = r.emails
  preferences : r'.preferences = r.preferences ∨
    may r.key ∧ ∃ m : PreferenceMap, r'.preferences = m.toJson.text

/-- The same users in the same order, and the same parts out of reach. Only users whose keys may have them
replaced have other preferences. -/
inductive UserStore.Rewritten (may : String → Prop) : UserStore → UserStore → Prop
  | directory {users users' : Directory} {outage : Option UserStore.Outage}
      (h : List.Forall₂ (User.Rewritten may) users users') :
      Rewritten may ⟨.directory users, outage⟩ ⟨.directory users', outage⟩
  | table {rows rows' : Table} {outage : Option UserStore.Outage}
      (h : List.Forall₂ (Table.Row.Rewritten may) rows rows') :
      Rewritten may ⟨.table rows, outage⟩ ⟨.table rows', outage⟩

/-! ### Results -/

namespace UserStore

variable {α β : Type} {R S : α → α → Prop} {x x' : Except UserError α}

/-- The same failure, or results that are related. -/
inductive Alike (R : α → α → Prop) : Except UserError α → Except UserError α → Prop
  | ok {a a' : α} (h : R a a') : Alike R (.ok a) (.ok a')
  | error (e : UserError) : Alike R (.error e) (.error e)

/-- Results that are alike, unless a record could not be read before. -/
inductive Persists (R : α → α → Prop) : Except UserError α → Except UserError α → Prop
  | alike {x x' : Except UserError α} (h : Alike R x x') : Persists R x x'
  | unread (fault : Json.Fault) (x : Except UserError α) : Persists R (.error (.badRecord fault)) x

theorem Alike.same (x : Except UserError α) : Alike Eq x x := by
  cases x with
  | ok a => exact .ok rfl
  | error e => exact .error e

theorem Alike.bind {S : β → β → Prop} {f f' : α → Except UserError β} (h : Alike R x x')
    (hf : ∀ a a', R a a' → Alike S (f a) (f' a')) : Alike S (x >>= f) (x' >>= f') := by
  cases h with
  | ok h => exact hf _ _ h
  | error e => exact .error e

theorem Persists.same (x : Except UserError α) : Persists Eq x x :=
  .alike (.same x)

theorem Persists.ok {a a' : α} (h : R a a') : Persists R (.ok a) (.ok a') :=
  .alike (.ok h)

theorem Persists.mono (h : Persists R x x') (hrel : ∀ a a', R a a' → S a a') : Persists S x x' := by
  cases h with
  | alike h =>
    cases h with
    | ok h => exact .ok (hrel _ _ h)
    | error e => exact .alike (.error e)
  | unread fault => exact .unread fault _

theorem Persists.bind {S : β → β → Prop} {f f' : α → Except UserError β} (h : Persists R x x')
    (hf : ∀ a a', R a a' → Persists S (f a) (f' a')) : Persists S (x >>= f) (x' >>= f') := by
  cases h with
  | alike h =>
    cases h with
    | ok h => exact hf _ _ h
    | error e => exact .alike (.error e)
  | unread fault => exact .unread fault _

theorem Persists.of_ne (h : Persists R x x') (hread : ∀ fault, x ≠ .error (.badRecord fault)) :
    Alike R x x' := by
  cases h with
  | alike h => exact h
  | unread fault => exact absurd rfl (hread fault)

end UserStore

theorem forall₂_trans {α : Type} {R : α → α → Prop} (htrans : ∀ {a b c}, R a b → R b c → R a c)
    {as bs cs : List α} (h : List.Forall₂ R as bs) (h' : List.Forall₂ R bs cs) :
    List.Forall₂ R as cs := by
  induction h generalizing cs with
  | nil => exact h'
  | cons hfirst _ ih =>
    cases h' with
    | cons hfirst' hrest' => exact .cons (htrans hfirst hfirst') (ih hrest')

/-! ### Users and rows -/

namespace User

theorem Rewritten.refl (u : User) : u.Rewritten may u :=
  ⟨rfl, rfl, fun _ => rfl⟩

theorem Rewritten.trans {u v w : User} (h : u.Rewritten may v) (h' : v.Rewritten may w) :
    u.Rewritten may w where
  key := h'.key.trans h.key
  identifiers := h'.identifiers.trans h.identifiers
  preferences hnot := (h'.preferences (h.key ▸ hnot)).trans (h.preferences hnot)

theorem Rewritten.mono {may' : String → Prop} (hmay : ∀ key, may key → may' key) {u v : User}
    (h : u.Rewritten may v) : u.Rewritten may' v :=
  ⟨h.key, h.identifiers, fun hnot => h.preferences (mt (hmay u.key) hnot)⟩

theorem Rewritten.eq {u v : User} (h : u.Rewritten may v) (hnot : ¬may u.key) : v = u := by
  obtain ⟨key, identifiers, preferences⟩ := u
  obtain ⟨key', identifiers', preferences'⟩ := v
  obtain rfl := h.key
  obtain rfl := h.identifiers
  obtain rfl := h.preferences hnot
  rfl

theorem Rewritten.emails {u v : User} (h : u.Rewritten may v) : v.emails = u.emails := by
  rw [User.emails, User.emails, h.identifiers]

/-- The only match is the same one. -/
theorem alike_single (id : Identifier) {us vs : List User}
    (h : List.Forall₂ (User.Rewritten may) us vs) :
    UserStore.Alike (User.Rewritten may) (single id us) (single id vs) := by
  cases h with
  | nil => exact .error _
  | cons hfirst hrest =>
    cases hrest with
    | nil => exact .ok hfirst
    | cons _ hmore =>
      simp only [single, List.length_cons, hmore.length_eq]
      exact .error _

end User

namespace Table.Row

theorem Rewritten.refl (r : Row) : r.Rewritten may r :=
  ⟨rfl, rfl, rfl, .inl rfl⟩

theorem Rewritten.trans {q r t : Row} (h : q.Rewritten may r) (h' : r.Rewritten may t) :
    q.Rewritten may t where
  key := h'.key.trans h.key
  identifiers := h'.identifiers.trans h.identifiers
  emails := h'.emails.trans h.emails
  preferences := by
    obtain hsame | ⟨hmay, hwritten⟩ := h'.preferences
    · rw [hsame]
      exact h.preferences
    · exact .inr ⟨h.key ▸ hmay, hwritten⟩

theorem Rewritten.mono {may' : String → Prop} (hmay : ∀ key, may key → may' key) {q r : Row}
    (h : q.Rewritten may r) : q.Rewritten may' r :=
  ⟨h.key, h.identifiers, h.emails, h.preferences.imp_right (.imp_left (hmay q.key))⟩

theorem Rewritten.eq {q r : Row} (h : q.Rewritten may r) (hnot : ¬may q.key) : r = q := by
  obtain ⟨key, preferences, identifiers, emails⟩ := q
  obtain ⟨key', preferences', identifiers', emails'⟩ := r
  obtain rfl := h.key
  obtain rfl := h.identifiers
  obtain rfl := h.emails
  obtain rfl | ⟨hmay, -⟩ := h.preferences
  · rfl
  · exact absurd hmay hnot

/-- A row that can be read still can, and it stores the same user. -/
theorem Rewritten.persists_user {q r : Row} (h : q.Rewritten may r) :
    UserStore.Persists (User.Rewritten may) q.user r.user := by
  obtain hsame | ⟨hmay, m, hm⟩ := h.preferences
  · have huser : r.user = q.user := by
      simp only [Row.user, h.key, h.identifiers, hsame]
    rw [huser]
    exact (UserStore.Persists.same q.user).mono fun u v huv => huv ▸ .refl u
  · -- What was stored instead can always be read, so only the row before may be at fault.
    simp only [Row.user, h.key, h.identifiers, hm, PreferenceMap.decodeText_text]
    refine (UserStore.Persists.same _).bind fun identifiers _ hidentifiers => ?_
    subst hidentifiers
    cases Json.decodeText PreferenceMap.decoder q.preferences with
    | ok preferences => exact .ok ⟨rfl, rfl, absurd hmay⟩
    | error fault => exact .unread fault _

theorem Rewritten.persists_users {rows rows' : List Row}
    (h : List.Forall₂ (Rewritten may) rows rows') :
    UserStore.Persists (List.Forall₂ (User.Rewritten may)) (rows.mapM Row.user)
      (rows'.mapM Row.user) := by
  induction h with
  | nil => exact .ok .nil
  | cons hfirst _ ih =>
    rw [List.mapM_cons, List.mapM_cons]
    exact hfirst.persists_user.bind fun u u' hu => ih.bind fun us us' hus => .ok (.cons hu hus)

end Table.Row

/-! ### Directories -/

namespace Directory

variable {users users' : Directory}

theorem rewritten_refl (users : Directory) : List.Forall₂ (User.Rewritten may) users users :=
  List.forall₂_same.mpr fun u _ => .refl u

/-- Users are selected alike where only keys and identifiers are looked at. -/
theorem rewritten_filter (h : List.Forall₂ (User.Rewritten may) users users') {p : User → Bool}
    (hp : ∀ u u' : User, u.Rewritten may u' → p u' = p u) :
    List.Forall₂ (User.Rewritten may) (users.filter p) (users'.filter p) := by
  induction h with
  | nil => exact .nil
  | cons hfirst _ ih =>
    rw [List.filter_cons, List.filter_cons, hp _ _ hfirst]
    split
    · exact .cons hfirst ih
    · exact ih

theorem isEmpty_eq (h : List.Forall₂ (User.Rewritten may) users users') :
    users'.isEmpty = users.isEmpty := by
  cases h <;> rfl

theorem alike_resolve (h : List.Forall₂ (User.Rewritten may) users users') (id : Identifier) :
    UserStore.Alike (User.Rewritten may) (users.resolve id) (users'.resolve id) := by
  have hholders : List.Forall₂ (User.Rewritten may) (users.holders id) (users'.holders id) :=
    rewritten_filter h fun u u' hu => by rw [hu.identifiers]
  have haddressees : List.Forall₂ (User.Rewritten may) (users.addressees id.value)
      (users'.addressees id.value) :=
    rewritten_filter h fun u u' hu => by rw [hu.emails]
  simp only [resolve, isEmpty_eq hholders]
  split
  · exact User.alike_single id haddressees
  · exact User.alike_single id hholders

/-- Whoever keeps their preferences is shown as before. -/
theorem get_eq (h : List.Forall₂ (User.Rewritten may) users users') {key : String}
    (hnot : ¬may key) : users'.get key = users.get key := by
  unfold get
  induction h with
  | nil => rfl
  | @cons u u' _ _ hfirst _ ih =>
    rw [List.find?_cons, List.find?_cons, hfirst.key]
    cases hkey : u.key == key with
    | true => rw [hfirst.eq (beq_iff_eq.mp hkey ▸ hnot)]
    | false => exact ih

/-- Preferences are replaced alike. -/
theorem rewritten_modify (h : List.Forall₂ (User.Rewritten may) users users') (key : String)
    (m : PreferenceMap) :
    (modify key (fun u => { u with preferences := m }) users = none ∧
        modify key (fun u => { u with preferences := m }) users' = none) ∨
      ∃ changed changed', modify key (fun u => { u with preferences := m }) users = some changed ∧
        modify key (fun u => { u with preferences := m }) users' = some changed' ∧
        List.Forall₂ (User.Rewritten may) changed changed' := by
  induction h with
  | nil => exact .inl ⟨rfl, rfl⟩
  | @cons u u' rest rest' hfirst hrest ih =>
    unfold modify
    by_cases hkey : u.key = key
    · rw [if_pos hkey, if_pos (hfirst.key.trans hkey)]
      exact .inr ⟨_, _, rfl, rfl, .cons ⟨hfirst.key, hfirst.identifiers, fun _ => rfl⟩ hrest⟩
    · rw [if_neg hkey, if_neg (hfirst.key.trans_ne hkey)]
      obtain ⟨hnone, hnone'⟩ | ⟨changed, changed', hsome, hsome', hall⟩ := ih
      · rw [hnone, hnone']
        exact .inl ⟨rfl, rfl⟩
      · rw [hsome, hsome']
        exact .inr ⟨_, _, rfl, rfl, .cons hfirst hall⟩

end Directory

/-! ### Tables -/

namespace Table

variable {rows rows' : Table}

theorem rewritten_refl (rows : Table) : List.Forall₂ (Row.Rewritten may) rows rows :=
  List.forall₂_same.mpr fun r _ => .refl r

/-- A search does not look at the preferences. -/
theorem persists_search (h : List.Forall₂ (Row.Rewritten may) rows rows') {column : Row → String}
    (hcolumn : ∀ r r' : Row, r.Rewritten may r' → column r' = column r)
    (asked : Option String → Bool) (text : String) :
    UserStore.Persists (List.Forall₂ (Row.Rewritten may)) (search column asked text rows)
      (search column asked text rows') := by
  induction h with
  | nil => exact .ok .nil
  | @cons r r' rest rest' hfirst _ ih =>
    simp only [search, hcolumn r r' hfirst]
    refine (UserStore.Persists.same _).bind fun texts _ htexts => ih.bind fun found found' hfound => ?_
    subst htexts
    split
    · exact .ok (.cons hfirst hfound)
    · exact .ok hfound

theorem persists_resolve (h : List.Forall₂ (Row.Rewritten may) rows rows') (id : Identifier) :
    UserStore.Persists (User.Rewritten may) (rows.resolve id) (rows'.resolve id) := by
  have hholders : UserStore.Persists (List.Forall₂ (User.Rewritten may)) (rows.holders id)
      (rows'.holders id) :=
    (persists_search h (fun _ _ hr => hr.identifiers) _ _).bind fun _ _ => Row.Rewritten.persists_users
  have haddressees : UserStore.Persists (List.Forall₂ (User.Rewritten may)) (rows.addressees id.value)
      (rows'.addressees id.value) :=
    (persists_search h (fun _ _ hr => hr.emails) _ _).bind fun _ _ => Row.Rewritten.persists_users
  refine hholders.bind fun exact exact' hexact => ?_
  rw [Directory.isEmpty_eq hexact]
  split
  · exact haddressees.bind fun us us' hus => .alike (User.alike_single id hus)
  · exact .alike (User.alike_single id hexact)

/-- Whoever keeps their preferences is shown as before. -/
theorem get_eq (h : List.Forall₂ (Row.Rewritten may) rows rows') {key : String} (hnot : ¬may key) :
    rows'.get key = rows.get key := by
  unfold get
  induction h with
  | nil => rfl
  | @cons r r' _ _ hfirst _ ih =>
    rw [List.find?_cons, List.find?_cons, hfirst.key]
    cases hkey : r.key == key with
    | true => rw [hfirst.eq (beq_iff_eq.mp hkey ▸ hnot)]
    | false => exact ih

theorem hasKey_eq (h : List.Forall₂ (Row.Rewritten may) rows rows') (key : String) :
    rows'.hasKey key = rows.hasKey key := by
  induction h with
  | nil => rfl
  | cons hfirst _ ih =>
    simp only [hasKey, List.any_cons, hfirst.key] at ih ⊢
    rw [ih]

/-- Preferences are replaced alike. -/
theorem rewritten_update (h : List.Forall₂ (Row.Rewritten may) rows rows') (key : String)
    (m : PreferenceMap) :
    List.Forall₂ (Row.Rewritten may)
      (rows.update key fun r => { r with preferences := m.toJson.text })
      (rows'.update key fun r => { r with preferences := m.toJson.text }) := by
  refine List.forall₂_map_left_iff.mpr (List.forall₂_map_right_iff.mpr (h.imp fun r r' hr => ?_))
  rw [hr.key]
  split
  · exact ⟨hr.key, hr.identifiers, hr.emails, .inl rfl⟩
  · exact hr

theorem rewritten_of_update (rows : Table) (key : String) (m : PreferenceMap) :
    List.Forall₂ (Row.Rewritten (· = key)) rows
      (rows.update key fun r => { r with preferences := m.toJson.text }) := by
  refine List.forall₂_map_right_iff.mpr (List.forall₂_same.mpr fun r _ => ?_)
  split
  · rename_i hkey
    exact ⟨rfl, rfl, rfl, .inr ⟨hkey, m, rfl⟩⟩
  · exact .refl r

end Table

/-! ### Stores -/

namespace UserStore

variable {s s' s'' : UserStore}

namespace Rewritten

theorem refl (s : UserStore) : s.Rewritten may s := by
  obtain ⟨backing, outage⟩ := s
  cases backing with
  | directory users => exact .directory (Directory.rewritten_refl users)
  | table rows => exact .table (Table.rewritten_refl rows)

theorem mono {may' : String → Prop} (hmay : ∀ key, may key → may' key) (h : s.Rewritten may s') :
    s.Rewritten may' s' := by
  cases h with
  | directory h => exact .directory (h.imp fun _ _ => User.Rewritten.mono hmay)
  | table h => exact .table (h.imp fun _ _ => Table.Row.Rewritten.mono hmay)

theorem trans (h : s.Rewritten may s') (h' : s'.Rewritten may s'') : s.Rewritten may s'' := by
  cases h with
  | directory h =>
    cases h' with
    | directory h' => exact .directory (forall₂_trans (fun hu hv => hu.trans hv) h h')
  | table h =>
    cases h' with
    | table h' => exact .table (forall₂_trans (fun hr ht => hr.trans ht) h h')

theorem of_updated {key : String} {m : PreferenceMap} (h : Updated key m s s') :
    s.Rewritten (· = key) s' := by
  cases h with
  | @directory before after u _ _ hkey =>
    have hchanged : User.Rewritten (· = key) u { u with preferences := m } :=
      ⟨rfl, rfl, absurd hkey⟩
    exact .directory (List.rel_append (Directory.rewritten_refl before)
      (.cons hchanged (Directory.rewritten_refl after)))
  | @table rows => exact .table (Table.rewritten_of_update rows key m)

theorem of_setPreferences {key : String} {m : PreferenceMap}
    (h : s.setPreferences key m = .ok s') : s.Rewritten (· = key) s' :=
  of_updated (updated_of_setPreferences h)

/-- Preferences are replaced in both, or in neither for the same reason. -/
theorem alike_setPreferences (h : s.Rewritten may s') (key : String) (m : PreferenceMap) :
    Alike (Rewritten may) (s.setPreferences key m) (s'.setPreferences key m) := by
  cases h with
  | directory h =>
    refine (Alike.same _).bind fun _ _ _ => ?_
    obtain ⟨hnone, hnone'⟩ | ⟨changed, changed', hsome, hsome', hall⟩ :=
      Directory.rewritten_modify h key m
    · simp only [Directory.setPreferences, hnone, hnone']
      exact .error _
    · simp only [Directory.setPreferences, hsome, hsome']
      exact .ok (.directory hall)
  | table h =>
    refine (Alike.same _).bind fun _ _ _ => ?_
    simp only [Table.setPreferences, Table.hasKey_eq h]
    split
    · exact .ok (.table (Table.rewritten_update h key m))
    · exact .error _

/-- Whoever keeps their preferences is shown as before. -/
theorem get_eq (h : s.Rewritten may s') {key : String} (hnot : ¬may key) :
    s'.get key = s.get key := by
  cases h with
  | directory h => exact congrArg (_ >>= ·) (funext fun _ => Directory.get_eq h hnot)
  | table h => exact congrArg (_ >>= ·) (funext fun _ => Table.get_eq h hnot)

/-- An identifier names the same user, or it names nobody for the same reason. -/
theorem persists_resolve (h : s.Rewritten may s') (id : Identifier) :
    Persists (User.Rewritten may) (s.resolve id) (s'.resolve id) := by
  cases h with
  | directory h => exact (Persists.same _).bind fun _ _ _ => .alike (Directory.alike_resolve h id)
  | table h => exact (Persists.same _).bind fun _ _ _ => Table.persists_resolve h id

end Rewritten

/-- No look-up of a candidate fails because a record cannot be read. -/
def Reads (s : UserStore) (candidates : IdentifierSet) : Prop :=
  ∀ id ∈ candidates.toList, ∀ fault, s.resolve id ≠ .error (.badRecord fault)

theorem alike_firstResolved {R : User → User → Prop}
    {lookup lookup' : Identifier → Except UserError User} (sought : String)
    {failed ambiguous : Option UserError} {ids : List Identifier}
    (h : ∀ id ∈ ids, Alike R (lookup id) (lookup' id)) :
    Alike R (firstResolved lookup sought failed ambiguous ids).value
      (firstResolved lookup' sought failed ambiguous ids).value := by
  induction ids generalizing failed ambiguous with
  | nil => exact .error _
  | cons id rest ih =>
    obtain ⟨hid, hrest⟩ := List.forall_mem_cons.mp h
    unfold firstResolved
    generalize lookup id = x at hid ⊢
    generalize lookup' id = x' at hid ⊢
    cases hid with
    | ok h => exact .ok h
    | error e => cases e <;> exact ih hrest

/-- Whoever is found among candidates is found again, or nobody is found for the same reason. -/
theorem Rewritten.alike_find (h : s.Rewritten may s') {candidates : IdentifierSet}
    (hreads : s.Reads candidates) :
    Alike (User.Rewritten may) (s.find candidates).value (s'.find candidates).value :=
  alike_firstResolved _ fun id hid => (h.persists_resolve id).of_ne (hreads id hid)

/-- Records that could be read before still can. -/
theorem Rewritten.reads (h : s.Rewritten may s') {candidates : IdentifierSet}
    (hreads : s.Reads candidates) : s'.Reads candidates := by
  intro id hid fault hfault
  have halike := (h.persists_resolve id).of_ne (hreads id hid)
  rw [hfault] at halike
  generalize hx : s.resolve id = x at halike
  cases halike
  exact hreads id hid fault hx

end UserStore

end Herald
