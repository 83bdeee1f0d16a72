import Herald.Proofs.Preference.Provider
import Herald.Proofs.Processor.Recipients
import Herald.Proofs.User.Resolution

/-!
Whom a completed recipient is for. Completion adds all that a user is known by, and the completed
recipient is found to be the same user again, unless an address that others share takes the place of
the one by which the user was found.
-/

namespace Herald

/-- The user is found by an address that nobody holds under its key. Another address of theirs, which
somebody else holds too, takes its place; and an identifier that is kept and names somebody else comes
before all that name the user. -/
structure Displaces (users : Directory) (u : User) (candidates : IdentifierSet)
    (address own other : Identifier) : Prop where
  sought : address ∈ candidates.toList
  found : users.resolve address = .ok u
  first : ∀ earlier ∈ candidates.toList, compare earlier.key address.key = .lt →
    ∀ v, users.resolve earlier ≠ .ok v
  email : address.key.kind = Identifier.emailKind
  unheld : users.holders address = []
  own_mem : own ∈ u.identifiers.toList
  own_key : own.key = address.key
  shared : ∃ v ∈ users, v ≠ u ∧ own ∈ v.identifiers.toList
  other_mem : other ∈ candidates.toList
  kept : u.identifiers.get? other.key = none
  another : ∃ v, v ≠ u ∧ users.resolve other = .ok v
  before : ∀ id ∈ (candidates.merge u.identifiers).toList, users.resolve id = .ok u →
    compare other.key id.key = .lt

/-- Somebody else is reached before the user once the identifiers of the user have been added. -/
def Displaced (users : Directory) (u : User) (candidates : IdentifierSet) : Prop :=
  ∃ address own other, Displaces users u candidates address own other

namespace UserStore.Keeps

variable {store : UserStore} {users : Directory} {u : User} {candidates : IdentifierSet}

/-- What names somebody else after completion was there before, under a key that the user has not. -/
theorem kept_of_names_another (hu : u ∈ users) {id : Identifier}
    (hid : id ∈ (candidates.merge u.identifiers).toList) {v : User}
    (hresolve : users.resolve id = .ok v) (hne : v ≠ u) :
    id ∈ candidates.toList ∧ u.identifiers.get? id.key = none := by
  rcases IdentifierSet.mem_merge.mp hid with hown | hkept
  · exact absurd (Directory.eq_of_resolve hu hown hresolve) hne
  · exact hkept

/-- The same user is found if, after completion, what stands where the user was found names them. -/
theorem find_merge_of_reached (h : store.Keeps users) {address : Identifier} (hu : u ∈ users)
    (hfirst : ∀ earlier ∈ candidates.toList, compare earlier.key address.key = .lt →
      ∀ v, users.resolve earlier ≠ .ok v) {id : Identifier}
    (hid : id ∈ (candidates.merge u.identifiers).toList) (hkey : id.key = address.key)
    (hresolve : users.resolve id = .ok u) :
    (store.find (candidates.merge u.identifiers)).value = .ok u := by
  refine find_eq_ok_of_only hid (h.resolve id ▸ hresolve) fun earlier hearlier hlt v hv => ?_
  rw [h.resolve] at hv
  by_contra hne
  obtain ⟨hmem, -⟩ := kept_of_names_another hu hearlier hv hne
  exact hfirst earlier hmem (hkey ▸ hlt) v hv

/-- Where somebody else is found after completion, an identifier that was kept comes before all that
name the user. -/
theorem exists_kept_before (h : store.Keeps users) (hu : u ∈ users) {held : Identifier}
    (hheld : held ∈ u.identifiers.toList) (hresolve : users.resolve held = .ok u)
    (hne : (store.find (candidates.merge u.identifiers)).value ≠ .ok u) :
    ∃ other ∈ candidates.toList, u.identifiers.get? other.key = none ∧
      (∃ v, v ≠ u ∧ users.resolve other = .ok v) ∧
      ∀ id ∈ (candidates.merge u.identifiers).toList, users.resolve id = .ok u →
        compare other.key id.key = .lt := by
  have hmem : held ∈ (candidates.merge u.identifiers).toList :=
    IdentifierSet.mem_merge.mpr (.inl hheld)
  obtain ⟨v, hv⟩ := exists_find_eq_ok hmem ((h.resolve held).trans hresolve)
  have hother : v ≠ u := by
    rintro rfl
    exact hne hv
  obtain ⟨other, hotherMem, hnames, hfirst⟩ := find_eq_ok_iff.mp hv
  simp only [h.resolve] at hnames hfirst
  obtain ⟨hkeptMem, hkept⟩ := kept_of_names_another hu hotherMem hnames hother
  refine ⟨other, hkeptMem, hkept, ⟨v, hother, hnames⟩, fun id hid hidResolve => ?_⟩
  cases horder : compare other.key id.key with
  | lt => rfl
  | eq =>
    have hkey := Std.LawfulEqOrd.compare_eq_iff_eq.mp horder
    obtain rfl := Ascending.eq_of_key_eq hotherMem hid hkey
    exact absurd (Except.ok.inj (hnames.symm.trans hidResolve)) hother
  | gt => exact absurd hidResolve (hfirst id hid (Std.OrientedCmp.gt_iff_lt.mp horder) u)

/-- If the same user is not found again, this is why. -/
theorem displaced_of_find_ne (h : store.Keeps users)
    (hfind : (store.find candidates).value = .ok u)
    (hne : (store.find (candidates.merge u.identifiers)).value ≠ .ok u) :
    Displaced users u candidates := by
  obtain ⟨address, haddress, hfound, hfirst⟩ := find_eq_ok_iff.mp hfind
  simp only [h.resolve] at hfound hfirst
  have hu := Directory.mem_of_resolve hfound
  have hmissed : ∀ id ∈ (candidates.merge u.identifiers).toList, id.key = address.key →
      users.resolve id ≠ .ok u :=
    fun id hid hkey hresolve => hne (h.find_merge_of_reached hu hfirst hid hkey hresolve)
  -- The address has given way, or the user would be found by it again.
  have hgone : address ∉ (candidates.merge u.identifiers).toList :=
    fun hmem => hmissed address hmem rfl hfound
  obtain ⟨own, hown, hkey⟩ := IdentifierSet.exists_of_not_mem_merge haddress hgone
  have hshared := Directory.exists_sharer h.unique hu hown
    (hmissed own (IdentifierSet.mem_merge.mpr (.inl hown)) hkey)
  obtain ⟨hunheld, hemail, honly⟩ := Directory.fallback_of_not_mem hfound fun hmem =>
    hgone (IdentifierSet.mem_merge.mpr (.inl hmem))
  -- Still somebody is found, for the user holds the address under another key.
  obtain ⟨held, hheld, hresolve⟩ := Directory.exists_resolve_of_addressees h.unique honly
  obtain ⟨other, hother, hkept, hanother, hbefore⟩ := h.exists_kept_before hu hheld hresolve hne
  exact ⟨address, own, other, haddress, hfound, hfirst, hemail, hunheld, hown, hkey, hshared,
    hother, hkept, hanother, hbefore⟩

/-- After completion the same user is found exactly if the user is not displaced. -/
theorem find_merge_iff (h : store.Keeps users) (hfind : (store.find candidates).value = .ok u) :
    (store.find (candidates.merge u.identifiers)).value = .ok u ↔
      ¬Displaced users u candidates := by
  constructor
  · rintro hfound ⟨address, own, other, hdisplaces⟩
    obtain ⟨id, hid, hresolve, hfirst⟩ := find_eq_ok_iff.mp hfound
    obtain ⟨v, -, hother⟩ := hdisplaces.another
    have hlt := hdisplaces.before id hid (h.resolve id ▸ hresolve)
    have hmem : other ∈ (candidates.merge u.identifiers).toList :=
      IdentifierSet.mem_merge.mpr (.inr ⟨hdisplaces.other_mem, hdisplaces.kept⟩)
    exact hfirst other hmem hlt v ((h.resolve other).trans hother)
  · intro hstays
    by_contra hne
    exact hstays (h.displaced_of_find_ne hfind hne)

end UserStore.Keeps

namespace Processor

variable {store : UserStore} {users : Directory} {n : Notification} {u : User}

theorem value_enrichOne_of_find (h : (store.find n.recipient).value = .ok u) (context : Context) :
    (enrichOne store context n).value = n.withRecipient (n.recipient.merge u.identifiers) := by
  have hsomebody : n.recipient.isEmpty = false := by
    rw [Bool.eq_false_iff]
    exact fun hempty => find_empty store hempty u h
  rw [enrichOne, hsomebody, if_neg Bool.false_ne_true, Logged.value_bind, h]
  rfl

/-- Unless the user is displaced, the completed recipient is found to be the same user. -/
theorem find_enrichOne_iff (h : store.Keeps users) (hfind : (store.find n.recipient).value = .ok u)
    (context : Context) :
    (store.find (enrichOne store context n).value.recipient).value = .ok u ↔
      ¬Displaced users u n.recipient := by
  rw [value_enrichOne_of_find hfind]
  exact h.find_merge_iff hfind

/-- Where the same user is found again, there is nothing left to add. -/
theorem value_enrichOne_again {context : Context} (hfind : (store.find n.recipient).value = .ok u)
    (hagain : (store.find (enrichOne store context n).value.recipient).value = .ok u) :
    (enrichOne store context (enrichOne store context n).value).value =
      (enrichOne store context n).value := by
  rw [value_enrichOne_of_find hagain, value_enrichOne_of_find hfind]
  exact congrArg n.withRecipient (IdentifierSet.merge_merge_self n.recipient u.identifiers)

theorem value_enrichOne_idem (h : store.Keeps users) (context : Context)
    (hstays : ∀ u, (store.find n.recipient).value = .ok u → ¬Displaced users u n.recipient) :
    (enrichOne store context (enrichOne store context n).value).value =
      (enrichOne store context n).value := by
  by_cases hfind : ∃ u, (store.find n.recipient).value = .ok u
  · obtain ⟨u, hu⟩ := hfind
    exact value_enrichOne_again hu ((find_enrichOne_iff h hu context).mpr (hstays u hu))
  · have hsame := (completes_enrichOne store context n).unknown (not_exists.mp hfind)
    rw [hsame, hsame]

/-- A completed recipient is found to be the user for whom it was completed, unless the user is
displaced. So the wishes that count are those of this user, and nothing is left to complete. -/
structure SettlesRecipients (store : UserStore) (users : Directory) (e : Event) : Prop where
  same : ∀ (n : Notification) (u : User), (store.find n.recipient).value = .ok u →
    ((store.find (enrichOne store e.context n).value.recipient).value = .ok u ↔
      ¬Displaced users u n.recipient)
  gated : ∀ (n : Notification) (u : User), (store.find n.recipient).value = .ok u →
    ¬Displaced users u n.recipient → ∀ transport,
      ((Provider.users store).wants (enrichOne store e.context n).value transport).value =
        u.preferences.wish? n.context.type transport
  again : ∀ ns : List Notification,
    (∀ n ∈ ns, ∀ u, (store.find n.recipient).value = .ok u → ¬Displaced users u n.recipient) →
      (runOn store e [.enrich, .enrich] ns).value = (runOn store e [.enrich] ns).value

/-- Completion settles whom a notification is for, except where a user is displaced. -/
theorem enrichment_settles_recipients (h : store.Keeps users) (e : Event) :
    SettlesRecipients store users e where
  same n u hfind := find_enrichOne_iff h hfind e.context
  gated n u hfind hstays transport := by
    have hagain := (find_enrichOne_iff h hfind e.context).mpr hstays
    rw [Provider.wants, Provider.value_storedWish hagain,
      (completes_enrichOne store e.context n).context_eq]
  again ns hstays := by
    have hagain : (enrichAll store e.context (enrichAll store e.context ns).value).value =
        (enrichAll store e.context ns).value := by
      simp only [value_enrichAll, List.map_map]
      exact List.map_congr_left fun n hn => value_enrichOne_idem h e.context (hstays n hn)
    exact congrArg Except.ok hagain

/-! An example: the address of a team takes the place of the one by which a member was found, and so
somebody else takes the place of the member. -/

/-- The address of a team. -/
def teamMail : Identifier :=
  ⟨(sampleMail none Identifier.plain_of_mem_none).key, "team@example.org", by decide⟩

/-- The name of somebody else. -/
def leeName : Identifier :=
  ⟨sampleName.key, "lee", by decide⟩

/-- The number of somebody else. -/
def leeId : Identifier :=
  ⟨Slack.defaultUserId, "U3", by decide⟩

/-- A member of the team, who wants no messages. -/
def ada : User :=
  ⟨"ada", .ofList [teamMail, sampleMail (some "slack.com") Slack.defaultUserId.space_plain],
    PreferenceMap.setWish ∅ sampleEvent.context.type "writer" false⟩

/-- Somebody else, who wants them. -/
def lee : User :=
  ⟨"lee", .ofList [leeName, leeId],
    PreferenceMap.setWish ∅ sampleEvent.context.type "writer" true⟩

/-- The team and somebody else. -/
def team : Directory :=
  [ada, ⟨"bob", .ofList [teamMail], ∅⟩, lee]

/-- A notification for the member, which also names somebody else. -/
def adaNotification : Notification :=
  (Notification.about sampleEvent.context).withRecipient
    (.ofList [sampleMail none Identifier.plain_of_mem_none, leeName])

/-- The notification once it is completed. -/
def adaCompleted : Notification :=
  (enrichOne (.ofUsers team) sampleEvent.context adaNotification).value

/-- Completed for one user, the recipient is found to be another. The wishes that count are those of
the other, and completing once more adds what the other is known by. -/
theorem enrichment_reaches_another :
    (UserStore.ofUsers team).Keeps team ∧
      ((UserStore.ofUsers team).find adaNotification.recipient).value = .ok ada ∧
      adaCompleted.recipient = adaNotification.recipient.merge ada.identifiers ∧
      ((UserStore.ofUsers team).find adaCompleted.recipient).value = .ok lee ∧ lee ≠ ada ∧
      ada.preferences.wish? sampleEvent.context.type "writer" = some false ∧
      ((Provider.users (.ofUsers team)).wants adaCompleted "writer").value = some true ∧
      (enrichOne (.ofUsers team) sampleEvent.context adaCompleted).value ≠ adaCompleted := by
  have hunique : (team.map User.key).Nodup := by decide
  refine ⟨⟨hunique, rfl, .inl rfl⟩, by rfl, by rfl, by rfl, by decide, by rfl, by rfl, ?_⟩
  intro hsame
  have hadded : (enrichOne (.ofUsers team) sampleEvent.context adaCompleted).value.recipient.holds
      leeId := by rfl
  rw [hsame] at hadded
  exact absurd hadded (by decide)

/-- A notification that names nobody but the one. -/
def leeNotification : Notification :=
  adaNotification.withRecipient (.singleton leeName)

theorem enrichment_settles_recipients_sample :
    (UserStore.ofUsers team).Keeps team ∧ SettlesRecipients (.ofUsers team) team sampleEvent ∧
      Displaced team ada adaNotification.recipient ∧
      ¬Displaced team lee leeNotification.recipient := by
  have hunique : (team.map User.key).Nodup := by decide
  have hkeeps : (UserStore.ofUsers team).Keeps team := ⟨hunique, rfl, .inl rfl⟩
  have hsettles := enrichment_settles_recipients hkeeps sampleEvent
  refine ⟨hkeeps, hsettles, ?_, ?_⟩
  · by_contra hstays
    have hsame := (hsettles.same adaNotification ada rfl).mpr hstays
    have hlee : ((UserStore.ofUsers team).find adaCompleted.recipient).value = .ok lee := by rfl
    exact absurd (Except.ok.inj (hsame.symm.trans hlee)) (by decide)
  · exact (hsettles.same leeNotification lee rfl).mp rfl

end Processor

end Herald
