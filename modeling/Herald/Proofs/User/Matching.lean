import Herald.Proofs.User.Resolution
import Mathlib.Data.Set.Card

/-!
Which users an identifier matches. They are those who hold it or, if it is an address that nobody holds,
those who have this address in any namespace; a look-up gives the only one of them, or counts them.
-/

namespace Herald

/-- The user has this email address in some namespace. -/
def User.HasAddress (u : User) (address : String) : Prop :=
  ∃ id ∈ u.identifiers.toList, id.key.kind = Identifier.emailKind ∧ id.value = address

namespace User

variable {id : Identifier} {users : List User} {u : User}

theorem single_eq_ok_iff : single id users = .ok u ↔ users = [u] :=
  ⟨eq_of_single, fun h => by rw [h]; rfl⟩

theorem single_eq_error_iff {e : UserError} : single id users = .error e ↔
    users = [] ∧ e = .notFound id.text ∨
      2 ≤ users.length ∧ e = .ambiguous id.text users.length := by
  match users with
  | [] => simp [single, eq_comm]
  | [u] => simp [single]
  | u :: v :: rest => simp [single, eq_comm]

/-- How many there are decides, and in which order they stand does not. -/
theorem single_perm {users' : List User} (h : users.Perm users') :
    single id users = single id users' := by
  match users with
  | [] => rw [h.nil_eq]
  | [u] => rw [h.singleton_eq]
  | u :: v :: rest =>
    match users', h.length_eq with
    | u' :: v' :: rest', hlength =>
      change Except.error (UserError.ambiguous id.text (u :: v :: rest).length) = _
      rw [hlength]
      rfl

end User

namespace Directory

variable {users users' : Directory} {u v : User} {id : Identifier} {address : String}

/-- The only user of the directory with some property. -/
def IsOnly (users : Directory) (P : User → Prop) (u : User) : Prop :=
  u ∈ users ∧ P u ∧ ∀ v ∈ users, P v → v = u

/-- Nobody has the identifier under its own key, and it is an address. -/
def FallsBack (users : Directory) (id : Identifier) : Prop :=
  (∀ v ∈ users, id ∉ v.identifiers.toList) ∧ id.key.kind = Identifier.emailKind

/-- The identifier matches the user, who holds it or has the address that it falls back to. -/
def Matches (users : Directory) (id : Identifier) (u : User) : Prop :=
  u ∈ users ∧ (id ∈ u.identifiers.toList ∨ users.FallsBack id ∧ u.HasAddress id.value)

/-- The users whom the identifier matches, in their order. -/
def matching (users : Directory) (id : Identifier) : List User :=
  if (users.holders id).isEmpty && id.key.kind == Identifier.emailKind then
    users.addressees id.value
  else users.holders id

theorem resolve_eq_single (users : Directory) (id : Identifier) :
    users.resolve id = User.single id (users.matching id) := by
  unfold resolve matching
  dsimp only
  split <;> rfl

theorem matching_sublist (users : Directory) (id : Identifier) :
    (users.matching id).Sublist users := by
  unfold matching
  split <;> exact List.filter_sublist

theorem matching_perm (h : users.Perm users') (id : Identifier) :
    (users.matching id).Perm (users'.matching id) := by
  have hholders : (users.holders id).Perm (users'.holders id) := h.filter _
  have haddressees : (users.addressees id.value).Perm (users'.addressees id.value) := h.filter _
  unfold matching
  rw [hholders.isEmpty_eq]
  split
  · exact haddressees
  · exact hholders

theorem holders_isEmpty_iff :
    (users.holders id).isEmpty ↔ ∀ v ∈ users, id ∉ v.identifiers.toList := by
  rw [List.isEmpty_iff, List.eq_nil_iff_forall_not_mem]
  simp

theorem fallsBack_iff : users.FallsBack id ↔
    ((users.holders id).isEmpty && id.key.kind == Identifier.emailKind) = true := by
  rw [Bool.and_eq_true, holders_isEmpty_iff, beq_iff_eq]
  rfl

@[simp] theorem mem_matching : u ∈ users.matching id ↔ users.Matches id u := by
  by_cases hfalls : users.FallsBack id
  · rw [matching, if_pos (fallsBack_iff.mp hfalls), mem_addressees, User.mem_emails, Matches]
    apply and_congr_right
    intro hu
    simp [hfalls, hfalls.1 u hu, User.HasAddress]
  · rw [matching, if_neg (mt fallsBack_iff.mpr hfalls), mem_holders, Matches]
    simp [hfalls]

/-- Where keys are unique, as many users stand in the list as there are whom the identifier matches. -/
theorem length_matching (h : users.Unique) (id : Identifier) :
    (users.matching id).length = {u | users.Matches id u}.ncard := by
  have hnodup : (users.matching id).Nodup :=
    (List.Nodup.of_map User.key h).sublist (users.matching_sublist id)
  have hset : {u | users.Matches id u} = ((users.matching id).toFinset : Set User) := by
    ext u
    simp
  rw [hset, Set.ncard_coe_finset, List.toFinset_card_of_nodup hnodup]

theorem matching_eq_singleton_iff (h : users.Unique) :
    users.matching id = [u] ↔ users.Matches id u ∧ ∀ v, users.Matches id v → v = u := by
  have hnodup : (users.matching id).Nodup :=
    (List.Nodup.of_map User.key h).sublist (users.matching_sublist id)
  rw [← List.perm_singleton, List.perm_ext_iff_of_nodup hnodup (List.nodup_singleton u)]
  simp only [mem_matching, List.mem_singleton]
  constructor
  · intro hall
    exact ⟨(hall u).mpr rfl, fun v => (hall v).mp⟩
  · rintro ⟨hu, honly⟩ v
    exact ⟨honly v, fun hv => hv ▸ hu⟩

/-- Whether the identifier falls back or not is the same for all users, so either all that it matches
hold it or all of them have the address. -/
theorem isOnly_matches_iff :
    (users.Matches id u ∧ ∀ v, users.Matches id v → v = u) ↔
      users.IsOnly (fun v => id ∈ v.identifiers.toList) u ∨
        users.FallsBack id ∧ users.IsOnly (fun v => v.HasAddress id.value) u := by
  by_cases hfalls : users.FallsBack id
  · have hmatches : ∀ v, users.Matches id v ↔ v ∈ users ∧ v.HasAddress id.value := by
      intro v
      apply and_congr_right
      intro hv
      simp [hfalls, hfalls.1 v hv]
    have hnobody : ¬users.IsOnly (fun v => id ∈ v.identifiers.toList) u :=
      fun honly => hfalls.1 u honly.1 honly.2.1
    rw [or_iff_right hnobody, and_iff_right hfalls]
    simp only [hmatches, IsOnly, and_assoc, and_imp]
  · simp [Matches, hfalls, IsOnly, and_assoc]

theorem resolve_eq_ok_iff (h : users.Unique) : users.resolve id = .ok u ↔
    users.IsOnly (fun v => id ∈ v.identifiers.toList) u ∨
      users.FallsBack id ∧ users.IsOnly (fun v => v.HasAddress id.value) u := by
  rw [resolve_eq_single, User.single_eq_ok_iff, matching_eq_singleton_iff h, isOnly_matches_iff]

theorem resolve_eq_error_iff (h : users.Unique) {e : UserError} : users.resolve id = .error e ↔
    (∀ u, ¬users.Matches id u) ∧ e = .notFound id.text ∨
      2 ≤ {u | users.Matches id u}.ncard ∧
        e = .ambiguous id.text {u | users.Matches id u}.ncard := by
  rw [resolve_eq_single, User.single_eq_error_iff, length_matching h,
    List.eq_nil_iff_forall_not_mem]
  simp only [mem_matching]

theorem resolve_perm (h : users.Perm users') (id : Identifier) :
    users.resolve id = users'.resolve id := by
  rw [resolve_eq_single, resolve_eq_single, User.single_perm (matching_perm h id)]

/-- Whoever alone has an address is found by it in every namespace: nobody else can hold it exactly. -/
theorem resolve_of_isOnly_address (hunique : users.Unique)
    (h : users.IsOnly (fun v => v.HasAddress id.value) u)
    (hemail : id.key.kind = Identifier.emailKind) : users.resolve id = .ok u := by
  have haddress : ∀ v : User, id ∈ v.identifiers.toList → v.HasAddress id.value :=
    fun v hid => ⟨id, hid, hemail, rfl⟩
  rw [resolve_eq_ok_iff hunique]
  by_cases hheld : ∃ v ∈ users, id ∈ v.identifiers.toList
  · obtain ⟨v, hv, hid⟩ := hheld
    obtain rfl := h.2.2 v hv (haddress v hid)
    exact .inl ⟨hv, hid, fun w hw hidw => h.2.2 w hw (haddress w hidw)⟩
  · exact .inr ⟨⟨fun v hv hid => hheld ⟨v, hv, hid⟩, hemail⟩, h⟩

theorem put_of_notMem {user : User} (h : Unique (users ++ [user])) :
    users.put user = users ++ [user] := by
  rw [Unique, List.map_append, List.nodup_append] at h
  have hkey : users.hasKey user.key = false := by
    simpa [hasKey] using fun v hv heq => h.2.2 v.key (List.mem_map_of_mem hv) user.key (by simp) heq
  rw [put_eq (h.1), hkey]
  rfl

end Directory

namespace UserStore

variable {s t : UserStore} {users users' : Directory} {us us' : List User} {u : User}
  {candidates : IdentifierSet}

/-- Users with new keys are added one after another at the end. -/
theorem Keeps.run_put (h : s.Keeps users) (us : List User) (hunique : Directory.Unique (users ++ us)) :
    (s.run (us.map .put)).2.Keeps (users ++ us) := by
  induction us generalizing s users with
  | nil =>
    rw [List.append_nil]
    exact h
  | cons u rest ih =>
    have happend : users ++ u :: rest = users ++ [u] ++ rest := by simp
    rw [happend] at hunique ⊢
    have hfirst : Directory.Unique (users ++ [u]) := by
      rw [Directory.Unique, List.map_append] at hunique
      exact (List.nodup_append.mp hunique).1
    obtain ⟨s', hput, hs'⟩ := h.put u
    rw [Directory.put_of_notMem hfirst] at hs'
    have hperform : s.perform (.put u) = (.done (.ok ()), s') := by
      rw [perform, hput]
      rfl
    rw [List.map_cons, run, hperform]
    exact ih hs' hunique

/-- Whoever is found is matched by some candidate. -/
theorem Keeps.exists_matches_of_find (h : s.Keeps users) (hfind : (s.find candidates).value = .ok u) :
    ∃ id ∈ candidates.toList, users.Matches id u := by
  obtain ⟨id, hid, hresolve, -⟩ := find_eq_ok_iff.mp hfind
  rw [h.resolve, Directory.resolve_eq_single, User.single_eq_ok_iff] at hresolve
  refine ⟨id, hid, Directory.mem_matching.mp ?_⟩
  rw [hresolve]
  exact List.mem_singleton_self u

/-- What the store answers about identifiers is up to the users whom they match: it gives the only one,
and otherwise says how many there are. -/
structure AnswersByMatches (s : UserStore) (users : Directory) : Prop where
  ok_iff : ∀ id u, s.resolve id = .ok u ↔
    users.IsOnly (fun v => id ∈ v.identifiers.toList) u ∨
      users.FallsBack id ∧ users.IsOnly (fun v => v.HasAddress id.value) u
  error_iff : ∀ id e, s.resolve id = .error e ↔
    (∀ u, ¬users.Matches id u) ∧ e = .notFound id.text ∨
      2 ≤ {u | users.Matches id u}.ncard ∧ e = .ambiguous id.text {u | users.Matches id u}.ncard
  order : ∀ t users', Keeps t users' → users'.Perm users → ∀ id, t.resolve id = s.resolve id
  /-- The namespace of an address that only one user has does not matter. -/
  everywhere : ∀ u address, users.IsOnly (fun v => v.HasAddress address) u →
    ∀ id, id.key.kind = Identifier.emailKind → id.value = address → s.resolve id = .ok u
  find : ∀ candidates u, (s.find candidates).value = .ok u → ∃ id ∈ candidates.toList,
    id ∈ u.identifiers.toList ∨ id.key.kind = Identifier.emailKind ∧ u.HasAddress id.value

theorem Keeps.answersByMatches (h : s.Keeps users) : s.AnswersByMatches users where
  ok_iff id u := by
    rw [h.resolve]
    exact Directory.resolve_eq_ok_iff h.unique
  error_iff id e := by
    rw [h.resolve]
    exact Directory.resolve_eq_error_iff h.unique
  order t users' ht hperm id := by
    rw [h.resolve, ht.resolve]
    exact Directory.resolve_perm hperm id
  everywhere u address honly id hemail hvalue := by
    subst hvalue
    rw [h.resolve]
    exact Directory.resolve_of_isOnly_address h.unique honly hemail
  find candidates u hfind := by
    obtain ⟨id, hid, -, hmatches⟩ := h.exists_matches_of_find hfind
    exact ⟨id, hid, hmatches.imp_right fun hfalls => ⟨hfalls.1.2, hfalls.2⟩⟩

/-- A store with unique keys answers by the users whom an identifier matches, and in which order users
were added to stores does not matter. -/
theorem resolve_counts_matches :
    (∀ (s : UserStore) users, s.Keeps users → s.AnswersByMatches users) ∧
      ∀ (s t : UserStore) (us us' : List User), s.Keeps [] → t.Keeps [] → Directory.Unique us →
        us'.Perm us → ∀ id, (t.run (us'.map .put)).2.resolve id =
          (s.run (us.map .put)).2.resolve id := by
  refine ⟨fun s users h => h.answersByMatches, fun s t us us' hs ht hunique hperm id => ?_⟩
  have hunique' : Directory.Unique us' := (hperm.map User.key).nodup_iff.mpr hunique
  have hadded := (hs.run_put us hunique).answersByMatches
  exact hadded.order _ _ (ht.run_put us' hunique') hperm id

/-! An example: a mailbox that two people share in different namespaces, and one that is nobody else's. -/

theorem plain_email : Identifier.Plain "email" := by
  decide

/-- An address in the namespace of a chat. -/
def chatMail (address : String) (h : address ≠ "") : Identifier :=
  ⟨⟨some "chat.example", "email", by decide, plain_email⟩, address, h⟩

/-- An address in the namespace of a forge. -/
def forgeMail (address : String) (h : address ≠ "") : Identifier :=
  ⟨⟨some "forge.example", "email", by decide, plain_email⟩, address, h⟩

/-- Two people with a shared mailbox, of whom one has another one. -/
def mailboxUsers : Directory :=
  [⟨"ann", .ofList [chatMail "crew@example.org" (by decide), forgeMail "ann@example.org" (by decide)], ∅⟩,
    ⟨"ben", .ofList [forgeMail "crew@example.org" (by decide)], ∅⟩]

/-- The shared mailbox in no namespace. -/
def crewMailbox : Identifier :=
  ⟨⟨none, "email", Identifier.plain_of_mem_none, plain_email⟩, "crew@example.org", by decide⟩

theorem resolve_counts_matches_sample :
    (ofUsers mailboxUsers).Keeps mailboxUsers ∧ Directory.Unique mailboxUsers ∧
      mailboxUsers.reverse.Perm mailboxUsers ∧
      (ofUsers mailboxUsers).AnswersByMatches mailboxUsers ∧
      {u | mailboxUsers.Matches crewMailbox u}.ncard = 2 ∧
      (∃ u, mailboxUsers.IsOnly (fun v => v.HasAddress "ann@example.org") u) ∧
      (emptyTable.run (mailboxUsers.reverse.map .put)).2.resolve crewMailbox =
        ((ofUsers []).run (mailboxUsers.map .put)).2.resolve crewMailbox := by
  have hunique : Directory.Unique mailboxUsers := by
    change (mailboxUsers.map User.key).Nodup
    decide
  have hkeeps : (ofUsers mailboxUsers).Keeps mailboxUsers := ⟨hunique, rfl, .inl rfl⟩
  have hperm := mailboxUsers.reverse_perm
  have hanswers := resolve_counts_matches.1 _ _ hkeeps
  refine ⟨hkeeps, hunique, hperm, hanswers, ?_, ?_, resolve_counts_matches.2 (ofUsers []) emptyTable
    mailboxUsers _ keeps_ofUsers_nil keeps_emptyTable hunique hperm crewMailbox⟩
  · rw [← Directory.length_matching hunique]
    decide
  · -- The address is found in a namespace in which nobody has it, so it falls back to its only owner.
    have hfound : (ofUsers mailboxUsers).resolve (chatMail "ann@example.org" (by decide)) =
        .ok ⟨"ann", .ofList [chatMail "crew@example.org" (by decide),
          forgeMail "ann@example.org" (by decide)], ∅⟩ := by
      rfl
    obtain ⟨-, hholds, -⟩ | ⟨-, honly⟩ := (hanswers.ok_iff _ _).mp hfound
    · exact absurd hholds (by decide)
    · exact ⟨_, honly⟩

end UserStore

end Herald
