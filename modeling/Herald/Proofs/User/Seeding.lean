import Herald.Proofs.User.Replacement
import Herald.Proofs.User.Table

/-!
Users that are put into a store one after another. Of several records with one key the last counts, as a
whole; rows of other keys stay as they are; and putting the same users once more changes nothing.
-/

namespace Herald

/-- A record after which no other has the same key. -/
def User.LastOf (u : User) (users : List User) : Prop :=
  ∃ before after, users = before ++ u :: after ∧ u.key ∉ after.map User.key

namespace User.LastOf

theorem mem {u : User} {users : List User} (h : u.LastOf users) : u ∈ users := by
  obtain ⟨before, after, rfl, -⟩ := h
  exact List.mem_append_right before List.mem_cons_self

theorem not_nil (u : User) : ¬u.LastOf [] :=
  fun h => List.not_mem_nil h.mem

theorem cons_iff {u v : User} {rest : List User} :
    v.LastOf (u :: rest) ↔ v = u ∧ u.key ∉ rest.map User.key ∨ v.LastOf rest := by
  constructor
  · rintro ⟨before, after, hsplit, hlast⟩
    cases before with
    | nil =>
      cases hsplit
      exact .inl ⟨rfl, hlast⟩
    | cons w before =>
      cases hsplit
      exact .inr ⟨before, after, rfl, hlast⟩
  · rintro (⟨rfl, hlast⟩ | ⟨before, after, rfl, hlast⟩)
    · exact ⟨[], rest, rfl, hlast⟩
    · exact ⟨u :: before, after, rfl, hlast⟩

/-- Every key that occurs has a last record. -/
theorem exists_of_mem {users : List User} {key : String} (h : key ∈ users.map User.key) :
    ∃ u : User, u.LastOf users ∧ u.key = key := by
  induction users with
  | nil => cases h
  | cons u rest ih =>
    by_cases hrest : key ∈ rest.map User.key
    · obtain ⟨v, hv, hkey⟩ := ih hrest
      exact ⟨v, cons_iff.mpr (.inr hv), hkey⟩
    · obtain rfl : key = u.key := (List.mem_cons.mp h).resolve_right hrest
      exact ⟨u, cons_iff.mpr (.inl ⟨rfl, hrest⟩), rfl⟩

end User.LastOf

/-! ### Tables -/

namespace Table

variable {rows : Table} {users : List User} {u : User} {r : Row}

/-- What a row is once a user has been put: that user's, if it has the key. -/
def Row.renew (r : Row) (u : User) : Row :=
  if r.key = u.key then .ofUser u else r

@[simp] theorem Row.key_renew (r : Row) (u : User) : (r.renew u).key = r.key := by
  unfold renew
  split
  · rename_i hkey
    exact hkey.symm
  · rfl

theorem put_eq : rows.put u =
    if rows.hasKey u.key then rows.map (·.renew u) else rows ++ [.ofUser u] :=
  rfl

theorem hasKey_iff_exists {key : String} : rows.hasKey key ↔ ∃ r ∈ rows, r.key = key :=
  hasKey_iff.trans List.mem_map

@[simp] theorem mem_put : r ∈ rows.put u ↔ r = .ofUser u ∨ r ∈ rows ∧ r.key ≠ u.key := by
  rw [put_eq]
  split
  · rename_i hhas
    obtain ⟨q, hq, hkey⟩ := hasKey_iff_exists.mp hhas
    constructor
    · intro hr
      obtain ⟨p, hp, rfl⟩ := List.mem_map.mp hr
      by_cases hpkey : p.key = u.key
      · exact .inl (if_pos hpkey)
      · rw [Row.renew, if_neg hpkey]
        exact .inr ⟨hp, hpkey⟩
    · rintro (rfl | ⟨hr, hne⟩)
      · exact List.mem_map.mpr ⟨q, hq, if_pos hkey⟩
      · exact List.mem_map.mpr ⟨r, hr, if_neg hne⟩
  · rename_i hnone
    rw [List.mem_append, List.mem_singleton, or_comm]
    refine or_congr_right (iff_self_and.mpr fun hr hkey => hnone ?_)
    exact hasKey_iff_exists.mpr ⟨r, hr, hkey⟩

/-- The rows of other keys are the same ones, in the same order. -/
theorem filter_put {p : String → Bool} (h : p u.key = false) :
    (rows.put u).filter (fun r => p r.key) = rows.filter fun r => p r.key := by
  rw [put_eq]
  split
  · simp only [List.filter_map, Function.comp_def, Row.key_renew]
    refine (List.map_congr_left fun r hr => if_neg fun hkey => ?_).trans (List.map_id _)
    rw [← hkey, (List.mem_filter.mp hr).2] at h
    cases h
  · have hnone : [Row.ofUser u].filter (fun r => p r.key) = [] :=
      List.filter_cons_of_neg (Bool.eq_false_iff.mp h)
    rw [List.filter_append, hnone, List.append_nil]

theorem map_key_put : (rows.put u).map Row.key =
    if rows.hasKey u.key then rows.map Row.key else rows.map Row.key ++ [u.key] := by
  rw [put_eq]
  split
  · rw [List.map_map]
    exact List.map_congr_left fun r _ => r.key_renew u
  · rw [List.map_append]
    rfl

theorem nodup_put (h : (rows.map Row.key).Nodup) : ((rows.put u).map Row.key).Nodup := by
  rw [map_key_put]
  split
  · exact h
  · rename_i hnone
    rw [← List.concat_eq_append]
    exact h.concat fun hmem => hnone (hasKey_iff.mpr hmem)

theorem hasKey_put_of_hasKey {key : String} (h : rows.hasKey key) : (rows.put u).hasKey key := by
  obtain ⟨r, hr, rfl⟩ := hasKey_iff_exists.mp h
  rw [hasKey_iff_exists]
  by_cases hkey : r.key = u.key
  · exact ⟨.ofUser u, mem_put.mpr (.inl rfl), hkey.symm⟩
  · exact ⟨r, mem_put.mpr (.inr ⟨hr, hkey⟩), rfl⟩

/-! ### Several users -/

def putAll (rows : Table) (users : List User) : Table :=
  users.foldl put rows

@[simp] theorem putAll_cons : rows.putAll (u :: users) = (rows.put u).putAll users :=
  rfl

/-- The rows are those of the last records, and those of other keys. -/
theorem mem_putAll : r ∈ rows.putAll users ↔
    (∃ u : User, u.LastOf users ∧ r = .ofUser u) ∨ r ∈ rows ∧ r.key ∉ users.map User.key := by
  induction users generalizing rows with
  | nil => simp [putAll, User.LastOf.not_nil]
  | cons v rest ih =>
    have hkey : (Row.ofUser v).key = v.key := rfl
    simp only [putAll_cons, ih, mem_put, User.LastOf.cons_iff, List.map_cons, List.mem_cons, not_or]
    constructor
    · rintro (⟨u, hu, rfl⟩ | ⟨rfl | ⟨hr, hne⟩, hrest⟩)
      · exact .inl ⟨u, .inr hu, rfl⟩
      · exact .inl ⟨v, .inl ⟨rfl, hrest⟩, rfl⟩
      · exact .inr ⟨hr, hne, hrest⟩
    · rintro (⟨u, ⟨rfl, hrest⟩ | hu, rfl⟩ | ⟨hr, hne, hrest⟩)
      · exact .inr ⟨.inl rfl, hrest⟩
      · exact .inl ⟨u, hu, rfl⟩
      · exact .inr ⟨.inr ⟨hr, hne⟩, hrest⟩

theorem filter_putAll {p : String → Bool} (h : ∀ u ∈ users, p u.key = false) :
    (rows.putAll users).filter (fun r => p r.key) = rows.filter fun r => p r.key := by
  induction users generalizing rows with
  | nil => rfl
  | cons u rest ih =>
    obtain ⟨hu, hrest⟩ := List.forall_mem_cons.mp h
    rw [putAll_cons, ih hrest, filter_put hu]

theorem nodup_putAll (h : (rows.map Row.key).Nodup) :
    ((rows.putAll users).map Row.key).Nodup := by
  induction users generalizing rows with
  | nil => exact h
  | cons u rest ih => exact ih (nodup_put h)

def Row.renewAll (r : Row) (users : List User) : Row :=
  users.foldl renew r

theorem Row.renewAll_of_notMem (h : r.key ∉ users.map User.key) : r.renewAll users = r := by
  induction users with
  | nil => rfl
  | cons u rest ih =>
    rw [List.map_cons, List.mem_cons, not_or] at h
    have hsame : r.renew u = r := if_neg h.1
    change (r.renew u).renewAll rest = r
    rw [hsame, ih h.2]

theorem Row.renewAll_of_lastOf (h : u.LastOf users) (hkey : r.key = u.key) :
    r.renewAll users = .ofUser u := by
  induction users generalizing r with
  | nil => exact absurd h (User.LastOf.not_nil u)
  | cons v rest ih =>
    rcases User.LastOf.cons_iff.mp h with ⟨rfl, hrest⟩ | hrest
    · have hnew : r.renew u = .ofUser u := if_pos hkey
      change (r.renew u).renewAll rest = .ofUser u
      rw [hnew]
      exact renewAll_of_notMem hrest
    · exact ih hrest ((r.key_renew v).trans hkey)

/-- Where all keys are there already, rows are renewed in their places. -/
theorem putAll_eq_map (h : ∀ u ∈ users, rows.hasKey u.key) :
    rows.putAll users = rows.map (·.renewAll users) := by
  induction users generalizing rows with
  | nil => exact (List.map_id rows).symm
  | cons u rest ih =>
    obtain ⟨hu, hrest⟩ := List.forall_mem_cons.mp h
    rw [putAll_cons, ih fun v hv => hasKey_put_of_hasKey (hrest v hv), put_eq, if_pos hu,
      List.map_map]
    rfl

/-- What has been put is not renewed any more. -/
theorem renewAll_of_mem_putAll (h : r ∈ rows.putAll users) : r.renewAll users = r := by
  rcases mem_putAll.mp h with ⟨u, hu, rfl⟩ | ⟨-, hnot⟩
  · exact Row.renewAll_of_lastOf hu rfl
  · exact Row.renewAll_of_notMem hnot

/-- Putting the same users once more changes no row. -/
@[simp] theorem putAll_putAll (rows : Table) (users : List User) :
    (rows.putAll users).putAll users = rows.putAll users := by
  have hkeys : ∀ u ∈ users, (rows.putAll users).hasKey u.key := by
    intro u hu
    obtain ⟨v, hv, hkey⟩ := User.LastOf.exists_of_mem (List.mem_map_of_mem hu)
    exact hasKey_iff_exists.mpr ⟨.ofUser v, mem_putAll.mpr (.inl ⟨v, hv, rfl⟩), hkey⟩
  rw [putAll_eq_map hkeys]
  exact (List.map_congr_left fun _ => renewAll_of_mem_putAll).trans (List.map_id _)

/-- A look-up sees only the rows of its key. -/
theorem get_eq_of_filter {rows' : Table} {key : String}
    (h : rows'.filter (fun r => r.key == key) = rows.filter fun r => r.key == key) :
    rows'.get key = rows.get key := by
  rw [get, get, ← List.head?_filter, ← List.head?_filter, h]

theorem get_putAll_of_notMem {key : String} (h : key ∉ users.map User.key) :
    (rows.putAll users).get key = rows.get key := by
  refine get_eq_of_filter (filter_putAll (p := (· == key)) fun u hu => ?_)
  exact beq_eq_false_iff_ne.mpr fun heq => h (heq ▸ List.mem_map_of_mem hu)

theorem eq_ofUser_of_mem_putAll (hu : u.LastOf users) (hr : r ∈ rows.putAll users)
    (hkey : r.key = u.key) : r = .ofUser u :=
  (renewAll_of_mem_putAll hr).symm.trans (Row.renewAll_of_lastOf hu hkey)

theorem get_putAll_of_lastOf (hu : u.LastOf users) : (rows.putAll users).get u.key = .ok u := by
  have hmem : Row.ofUser u ∈ rows.putAll users := mem_putAll.mpr (.inl ⟨u, hu, rfl⟩)
  have hsome : ((rows.putAll users).find? fun r => r.key == u.key).isSome :=
    List.find?_isSome.mpr ⟨.ofUser u, hmem, beq_self_eq_true u.key⟩
  obtain ⟨r, hfind⟩ := Option.isSome_iff_exists.mp hsome
  have hr := List.mem_of_find?_eq_some hfind
  have hkey : r.key = u.key := by
    simpa using List.find?_some hfind
  rw [get, hfind, eq_ofUser_of_mem_putAll hu hr hkey]
  exact Row.user_ofUser u

end Table

/-! ### Stores -/

namespace UserStore

variable {s s' : UserStore} {users : List User} {u : User}

/-- What a store holds, as a table. -/
def rows (s : UserStore) : Table :=
  match s.backing with
  | .directory users => .ofDirectory users
  | .table rows => rows

/-- All of the store is within reach, and the keys of a directory are unique. -/
structure AtHand (s : UserStore) : Prop where
  outage : s.outage = none
  unique : ∀ users, s.backing = .directory users → Directory.Unique users

namespace AtHand

theorem get (h : s.AtHand) (key : String) : s.get key = s.rows.get key := by
  obtain ⟨backing, outage⟩ := s
  obtain rfl := h.outage
  cases backing with
  | directory users => exact (Table.get_ofDirectory users key).symm
  | table rows => rfl

theorem put (h : s.AtHand) (u : User) :
    ∃ s', s.put u = .ok s' ∧ s'.AtHand ∧ s'.isTable = s.isTable ∧ s'.rows = s.rows.put u := by
  obtain ⟨backing, outage⟩ := s
  obtain rfl := h.outage
  cases backing with
  | directory users =>
    have hunique := h.unique users rfl
    refine ⟨⟨.directory (Directory.put users u), none⟩, rfl, ⟨rfl, ?_⟩, rfl, ?_⟩
    · rintro _ ⟨⟩
      exact Directory.unique_put hunique u
    · exact (Table.put_ofDirectory hunique u).symm
  | table rows => exact ⟨⟨.table (Table.put rows u), none⟩, rfl, ⟨rfl, nofun⟩, rfl, rfl⟩

/-- A store of one kind is known from its rows. -/
theorem ext (h : s.AtHand) (h' : s'.AtHand) (hkind : s'.isTable = s.isTable)
    (hrows : s'.rows = s.rows) : s' = s := by
  obtain ⟨backing, outage⟩ := s
  obtain ⟨backing', outage'⟩ := s'
  obtain rfl := h.outage
  obtain rfl := h'.outage
  cases backing with
  | directory users =>
    cases backing' with
    | directory users' =>
      have hinjective : Function.Injective Table.Row.ofUser := fun u v heq =>
        Except.ok.inj ((Table.Row.user_ofUser u).symm.trans (heq ▸ Table.Row.user_ofUser v))
      have hsame : users' = users := hinjective.list_map hrows
      rw [hsame]
    | table rows' => cases hkind
  | table rows =>
    cases backing' with
    | directory users' => cases hkind
    | table rows' =>
      have hsame : rows' = rows := hrows
      rw [hsame]

end AtHand

/-- A store into which these users have been put, over what it held before. -/
structure Seeded (users : List User) (before after : UserStore) : Prop where
  /-- For every key that occurs the last record counts, as a whole, and no other is left. -/
  last : ∀ key ∈ users.map User.key, ∃ u : User, u.LastOf users ∧ u.key = key ∧
    after.get key = .ok u ∧ ∀ r ∈ after.rows, r.key = key → r = .ofUser u
  get_other : ∀ key, key ∉ users.map User.key → after.get key = before.get key
  rows_other : after.rows.filter (fun r => r.key ∉ users.map User.key) =
    before.rows.filter fun r => r.key ∉ users.map User.key
  nodup : (before.rows.map Table.Row.key).Nodup → (after.rows.map Table.Row.key).Nodup

theorem seeded_of_rows (h : s.AtHand) (h' : s'.AtHand) (hrows : s'.rows = s.rows.putAll users) :
    Seeded users s s' where
  last := by
    intro key hkey
    obtain ⟨u, hu, rfl⟩ := User.LastOf.exists_of_mem hkey
    refine ⟨u, hu, rfl, ?_, ?_⟩
    · rw [h'.get, hrows, Table.get_putAll_of_lastOf hu]
    · rw [hrows]
      exact fun r hr => Table.eq_ofUser_of_mem_putAll hu hr
  get_other := by
    intro key hkey
    rw [h'.get, h.get, hrows, Table.get_putAll_of_notMem hkey]
  rows_other := by
    rw [hrows]
    refine Table.filter_putAll (p := fun key => key ∉ users.map User.key) fun u hu => ?_
    simpa using ⟨u, hu, rfl⟩
  nodup := by
    rw [hrows]
    exact Table.nodup_putAll

end UserStore

end Herald
