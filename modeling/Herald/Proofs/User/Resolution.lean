import Herald.Proofs.User.Store

/-!
Who is found. Whoever holds an identifier is the only one that it can name; an address that nobody holds
may still name somebody. Of several candidates the first one that names somebody decides.
-/

namespace Herald

open Result

theorem User.mem_emails {u : User} {address : String} :
    address ∈ u.emails ↔
      ∃ id ∈ u.identifiers.toList, id.key.kind = Identifier.emailKind ∧ id.value = address := by
  unfold emails
  dsimp only
  rw [Ascending.mem_ofList_id]
  simp [and_assoc]

namespace Directory

variable {users : Directory} {u v : User} {id : Identifier} {address : String}

@[simp] theorem mem_holders : u ∈ users.holders id ↔ u ∈ users ∧ id ∈ u.identifiers.toList := by
  rw [holders, List.mem_filter, IdentifierSet.holds_iff]

@[simp] theorem mem_addressees : u ∈ users.addressees address ↔ u ∈ users ∧ address ∈ u.emails := by
  rw [addressees, List.mem_filter, List.contains_iff_mem]

theorem resolve_of_mem_holders (h : u ∈ users.holders id) :
    users.resolve id = User.single id (users.holders id) := by
  have hsome : (users.holders id).isEmpty = false :=
    List.isEmpty_eq_false_iff.mpr (List.ne_nil_of_mem h)
  rw [resolve, hsome]
  rfl

theorem resolve_of_holders (h : users.holders id = [u]) : users.resolve id = .ok u := by
  rw [resolve_of_mem_holders (h ▸ List.mem_singleton_self u), h]
  rfl

/-- An identifier that somebody holds names nobody else. -/
theorem eq_of_resolve (hu : u ∈ users) (hid : id ∈ u.identifiers.toList)
    (h : users.resolve id = .ok v) : v = u := by
  have hholds : u ∈ users.holders id := mem_holders.mpr ⟨hu, hid⟩
  rw [resolve_of_mem_holders hholds] at h
  rw [User.eq_of_single h] at hholds
  exact (List.mem_singleton.mp hholds).symm

/-- Whoever is found without holding the identifier is found by an address that nobody holds so. -/
theorem fallback_of_not_mem (h : users.resolve id = .ok u) (hid : id ∉ u.identifiers.toList) :
    users.holders id = [] ∧ id.key.kind = Identifier.emailKind ∧
      users.addressees id.value = [u] := by
  unfold resolve at h
  dsimp only at h
  split at h
  · rename_i hfallback
    obtain ⟨hnobody, hemail⟩ := Bool.and_eq_true_iff.mp hfallback
    exact ⟨List.isEmpty_iff.mp hnobody, beq_iff_eq.mp hemail, User.eq_of_single h⟩
  · have hholds : u ∈ users.holders id := by
      rw [User.eq_of_single h]
      exact List.mem_singleton_self u
    exact absurd (mem_holders.mp hholds).2 hid

theorem holders_eq_singleton (hunique : users.Unique) (hu : u ∈ users)
    (hid : id ∈ u.identifiers.toList) (honly : ∀ v ∈ users.holders id, v = u) :
    users.holders id = [u] := by
  have hnodup : (users.holders id).Nodup := (List.Nodup.of_map User.key hunique).filter _
  refine List.perm_singleton.mp ((List.perm_ext_iff_of_nodup hnodup (List.nodup_singleton u)).mpr ?_)
  intro v
  rw [List.mem_singleton]
  refine ⟨honly v, ?_⟩
  rintro rfl
  exact mem_holders.mpr ⟨hu, hid⟩

/-- The only user with an address is named by the identifier under which they hold it. -/
theorem exists_resolve_of_addressees (hunique : users.Unique)
    (h : users.addressees address = [u]) :
    ∃ id ∈ u.identifiers.toList, users.resolve id = .ok u := by
  obtain ⟨hu, haddress⟩ := mem_addressees.mp (h ▸ List.mem_singleton_self u)
  obtain ⟨id, hid, hemail, hvalue⟩ := User.mem_emails.mp haddress
  refine ⟨id, hid, resolve_of_holders (holders_eq_singleton hunique hu hid fun v hv => ?_)⟩
  obtain ⟨hv, hidv⟩ := mem_holders.mp hv
  have hmem : v ∈ users.addressees address :=
    mem_addressees.mpr ⟨hv, User.mem_emails.mpr ⟨id, hidv, hemail, hvalue⟩⟩
  rw [h] at hmem
  exact List.mem_singleton.mp hmem

/-- An identifier that does not name the user who holds it is one that somebody else holds too. -/
theorem exists_sharer (hunique : users.Unique) (hu : u ∈ users)
    (hid : id ∈ u.identifiers.toList) (h : users.resolve id ≠ .ok u) :
    ∃ v ∈ users, v ≠ u ∧ id ∈ v.identifiers.toList := by
  by_contra hnobody
  refine h (resolve_of_holders (holders_eq_singleton hunique hu hid fun v hv => ?_))
  obtain ⟨hv, hidv⟩ := mem_holders.mp hv
  by_contra hne
  exact hnobody ⟨v, hv, hne, hidv⟩

end Directory

namespace UserStore

variable {s : UserStore} {candidates : IdentifierSet} {u : User}

theorem toOption_firstResolved (lookup : Identifier → Except UserError User) (sought : String)
    (failed ambiguous : Option UserError) (ids : List Identifier) :
    (firstResolved lookup sought failed ambiguous ids).value.toOption =
      ids.findSome? fun id => (lookup id).toOption := by
  induction ids generalizing failed ambiguous with
  | nil => rfl
  | cons id rest ih =>
    unfold firstResolved
    rw [List.findSome?_cons]
    split <;> rename_i hlookup <;> rw [hlookup]
    · rfl
    all_goals exact ih _ _

/-- The first candidate that names somebody decides. -/
theorem find_eq_ok_iff :
    (s.find candidates).value = .ok u ↔ ∃ id ∈ candidates.toList, s.resolve id = .ok u ∧
      ∀ earlier ∈ candidates.toList, compare earlier.key id.key = .lt →
        ∀ v, s.resolve earlier ≠ .ok v := by
  rw [← toOption_eq_some, find, findBy, toOption_firstResolved, List.findSome?_eq_some_iff]
  constructor
  · rintro ⟨before, id, after, hsplit, hid, hbefore⟩
    refine ⟨id, by rw [hsplit]; simp, toOption_eq_some.mp hid, fun earlier hmem hlt => ?_⟩
    have hearlier := (Ascending.lt_iff_mem_before hsplit hmem).mp hlt
    exact toOption_eq_none.mp (hbefore earlier hearlier)
  · rintro ⟨id, hmem, hid, hfirst⟩
    obtain ⟨before, after, hsplit⟩ := List.append_of_mem hmem
    refine ⟨before, id, after, hsplit, toOption_eq_some.mpr hid, fun earlier hearlier => ?_⟩
    have hmem' : earlier ∈ candidates.toList := by
      rw [hsplit]
      exact List.mem_append_left _ hearlier
    have hlt := (Ascending.lt_iff_mem_before hsplit hmem').mpr hearlier
    exact toOption_eq_none.mpr (hfirst earlier hmem' hlt)

/-- Where a candidate names somebody, somebody is found. -/
theorem exists_find_eq_ok {id : Identifier} (hmem : id ∈ candidates.toList)
    (hid : s.resolve id = .ok u) : ∃ v, (s.find candidates).value = .ok v := by
  by_contra hnobody
  have hnone := toOption_eq_none.mpr (not_exists.mp hnobody)
  rw [find, findBy, toOption_firstResolved, List.findSome?_eq_none_iff] at hnone
  exact toOption_eq_none.mp (hnone id hmem) u hid

/-- A user is found if no candidate before theirs names anybody else. -/
theorem find_eq_ok_of_only {id : Identifier} (hmem : id ∈ candidates.toList)
    (hid : s.resolve id = .ok u)
    (honly : ∀ earlier ∈ candidates.toList, compare earlier.key id.key = .lt →
      ∀ v, s.resolve earlier = .ok v → v = u) : (s.find candidates).value = .ok u := by
  obtain ⟨v, hfind⟩ := exists_find_eq_ok hmem hid
  obtain ⟨first, hfirstmem, hfirst, hbefore⟩ := find_eq_ok_iff.mp hfind
  cases horder : compare first.key id.key with
  | lt => rw [hfind, honly first hfirstmem horder v hfirst]
  | eq =>
    have hkey := Std.LawfulEqOrd.compare_eq_iff_eq.mp horder
    obtain rfl := Ascending.eq_of_key_eq hfirstmem hmem hkey
    rw [hfind, ← hfirst, hid]
  | gt => exact absurd hid (hbefore id hmem (Std.OrientedCmp.gt_iff_lt.mp horder) u)

end UserStore

end Herald
