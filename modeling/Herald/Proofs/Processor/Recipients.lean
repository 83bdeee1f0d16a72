import Herald.Processor.Chain
import Herald.Proofs.Identifier.Grouping
import Herald.Proofs.User.Store

/-!
Who is notified in the end. Completing recipients and then merging those that share an identifier leaves
one notification for everybody whom a store knows, and loses nobody.
-/

namespace Herald

namespace IdentifierSet

/-- Every key of the one set is a key of the other. -/
def KeysWithin (s t : IdentifierSet) : Prop :=
  ∀ k, (s.get? k).isSome → (t.get? k).isSome

theorem KeysWithin.isEmpty_eq_false {s t : IdentifierSet} (h : s.KeysWithin t)
    (hs : s.isEmpty = false) : t.isEmpty = false := by
  rw [Bool.eq_false_iff] at *
  intro ht
  obtain ⟨id, hid⟩ := List.exists_mem_of_ne_nil s.toList fun hnil => hs (List.isEmpty_iff.mpr hnil)
  have hkey := h id.key (by rw [get?, Ascending.lookup?_eq_some_iff.mpr ⟨hid, rfl⟩]; rfl)
  obtain ⟨id', hid'⟩ := Option.isSome_iff_exists.mp hkey
  have hmem := Ascending.mem_of_lookup? hid'
  rw [List.isEmpty_iff.mp ht] at hmem
  cases hmem

/-- A group has all keys of its members. -/
theorem keysWithin_mergeGroup {sets : List IdentifierSet} {g : List Nat} {i : Nat} (hi : i ∈ g)
    {s : IdentifierSet} (hs : sets[i]? = some s) : s.KeysWithin (mergeGroup sets g) := by
  intro k hk
  rw [get?_mergeGroup, List.findSome?_isSome_iff]
  exact ⟨i, List.mem_reverse.mpr hi, by rw [entryAt, hs]; exact hk⟩

/-! ### Groups of one -/

theorem length_le_length_flatten {groups : List (List Nat)} (h : ∀ g ∈ groups, g ≠ []) :
    groups.length ≤ groups.flatten.length := by
  induction groups with
  | nil => simp
  | cons g rest ih =>
    have hrest := ih fun g hg => h g (List.mem_cons_of_mem _ hg)
    have hfirst := List.length_pos_iff.mpr (h g List.mem_cons_self)
    rw [List.flatten_cons, List.length_append, List.length_cons]
    omega

/-- If there are as many groups as members, every group has one member. -/
theorem length_eq_one_of_flatten {groups : List (List Nat)} (h : ∀ g ∈ groups, g ≠ [])
    (hlength : groups.flatten.length = groups.length) : ∀ g ∈ groups, g.length = 1 := by
  induction groups with
  | nil => simp
  | cons g rest ih =>
    have hinhabited : ∀ g ∈ rest, g ≠ [] := fun g hg => h g (List.mem_cons_of_mem _ hg)
    have hrest := length_le_length_flatten hinhabited
    have hfirst := List.length_pos_iff.mpr (h g List.mem_cons_self)
    rw [List.flatten_cons, List.length_append, List.length_cons] at hlength
    rw [List.forall_mem_cons]
    exact ⟨by omega, ih hinhabited (by omega)⟩

namespace IsGrouping

variable {sets : List IdentifierSet} {groups : List (List Nat)}

theorem exists_mem (h : IsGrouping sets groups) {i : Nat} (hi : i < sets.length) :
    ∃ g ∈ groups, i ∈ g :=
  List.mem_flatten.mp (h.covers.mem_iff.mpr (List.mem_range.mpr hi))

/-- No position is in two groups. -/
theorem index_eq (h : IsGrouping sets groups) {i k l : Nat} {g g' : List Nat}
    (hk : groups[k]? = some g) (hl : groups[l]? = some g') (hg : i ∈ g) (hg' : i ∈ g') : k = l := by
  obtain ⟨hkl, rfl⟩ := List.getElem?_eq_some_iff.mp hk
  obtain ⟨hll, rfl⟩ := List.getElem?_eq_some_iff.mp hl
  have hdisjoint := List.pairwise_iff_getElem.mp h.disjoint
  rcases Nat.lt_trichotomy k l with hlt | heq | hlt
  · exact absurd hg' (hdisjoint k l hkl hll hlt hg)
  · exact heq
  · exact absurd hg (hdisjoint l k hll hkl hlt hg')

/-- If there are as many groups as sets, every position is a group of its own. -/
theorem eq_singletons_of_length (h : IsGrouping sets groups)
    (hlength : groups.length = sets.length) :
    groups = (List.range sets.length).map ([·]) := by
  have hone := length_eq_one_of_flatten h.inhabited
    (by rw [h.covers.length_eq, List.length_range, hlength])
  apply h.eq_singletons
  intro i hi j hj hlinked
  obtain ⟨g, hg, hig⟩ := h.exists_mem hi
  have hjg := (h.linked_iff g hg i hig j hj).mpr hlinked
  obtain ⟨k, rfl⟩ := List.length_eq_one_iff.mp (hone g hg)
  rw [List.mem_singleton] at hig hjg
  exact hig.trans hjg.symm

end IsGrouping

end IdentifierSet

/-! ### Persons -/

theorem User.emails_of_nil {u : User} (h : u.identifiers.toList = []) : u.emails = [] := by
  rw [emails, h]
  rfl

/-- Whoever is found is known by something. -/
theorem Directory.identifiers_ne_nil {users : Directory} {id : Identifier} {u : User}
    (h : users.resolve id = .ok u) : u.identifiers.toList ≠ [] := by
  intro hnil
  unfold resolve at h
  dsimp only at h
  split at h
  · have hmem := User.eq_of_single h ▸ List.mem_singleton_self u
    have haddress := (List.mem_filter.mp hmem).2
    rw [User.emails_of_nil hnil] at haddress
    cases haddress
  · have hmem := User.eq_of_single h ▸ List.mem_singleton_self u
    have hholds := IdentifierSet.holds_iff.mp (List.mem_filter.mp hmem).2
    rw [hnil] at hholds
    cases hholds

namespace UserStore.Keeps

variable {store : UserStore} {users : Directory} {u v : User}

theorem identifiers_ne_nil (h : store.Keeps users) {candidates : IdentifierSet}
    (hfind : (store.find candidates).value = .ok u) : u.identifiers.toList ≠ [] := by
  obtain ⟨id, -, hresolve⟩ := exists_resolve_of_find hfind
  rw [h.resolve] at hresolve
  exact Directory.identifiers_ne_nil hresolve

/-- The key says who has been found. -/
theorem eq_of_find (h : store.Keeps users) {candidates others : IdentifierSet}
    (hu : (store.find candidates).value = .ok u) (hv : (store.find others).value = .ok v)
    (hkey : u.key = v.key) : u = v := by
  have hmem : ∀ {candidates : IdentifierSet} {w : User},
      (store.find candidates).value = .ok w → w ∈ users := by
    intro candidates w hw
    obtain ⟨id, -, hresolve⟩ := exists_resolve_of_find hw
    rw [h.resolve] at hresolve
    exact Directory.mem_of_resolve hresolve
  exact List.inj_on_of_nodup_map h.unique (hmem hu) (hmem hv) hkey

end UserStore.Keeps

namespace Processor

variable {store : UserStore} {context : Context}

/-! ### Completion -/

/-- What completion makes of a notification: whoever the recipient is found to be adds all that they
are known by, and nothing else changes. -/
structure Completes (store : UserStore) (n n' : Notification) : Prop where
  recipient_only : n' = n.withRecipient n'.recipient
  found : ∀ u, (store.find n.recipient).value = .ok u →
    ∀ k, n'.recipient.get? k = (u.identifiers.get? k).or (n.recipient.get? k)
  unknown : (∀ u, (store.find n.recipient).value ≠ .ok u) → n' = n

theorem Completes.of_not_found {n : Notification}
    (h : ∀ u, (store.find n.recipient).value ≠ .ok u) : Completes store n n where
  recipient_only := rfl
  found u hu := absurd hu (h u)
  unknown _ := rfl

theorem Completes.context_eq {n n' : Notification} (h : Completes store n n') :
    n'.context = n.context := by
  rw [h.recipient_only]
  rfl

/-- No key gets lost. -/
theorem Completes.keysWithin {n n' : Notification} (h : Completes store n n') :
    n.recipient.KeysWithin n'.recipient := by
  intro k hk
  by_cases hfind : ∃ u, (store.find n.recipient).value = .ok u
  · obtain ⟨u, hu⟩ := hfind
    rw [h.found u hu, Option.isSome_or, hk, Bool.or_true]
  · rw [h.unknown (not_exists.mp hfind)]
    exact hk

theorem find_empty (store : UserStore) {candidates : IdentifierSet} (h : candidates.isEmpty) :
    ∀ u, (store.find candidates).value ≠ .ok u := by
  have hnil : candidates.toList = [] := List.isEmpty_iff.mp h
  rw [UserStore.find, UserStore.findBy, hnil]
  intro u hu
  cases hu

theorem completes_enrichOne (store : UserStore) (context : Context) (n : Notification) :
    Completes store n (enrichOne store context n).value := by
  unfold enrichOne
  split
  · rename_i hempty
    exact .of_not_found (find_empty store hempty)
  · rw [Logged.value_bind]
    cases hfind : (store.find n.recipient).value with
    | ok user =>
      refine ⟨rfl, fun u hu k => ?_, fun hnone => absurd hfind (hnone user)⟩
      obtain rfl : user = u := Except.ok.inj (hfind.symm.trans hu)
      exact IdentifierSet.get?_merge n.recipient user.identifiers k
    | error e =>
      dsimp only
      split
      · exact .of_not_found (by simp [hfind])
      · exact .of_not_found (by simp [hfind])

@[simp] theorem value_enrichAll (store : UserStore) (context : Context) (ns : List Notification) :
    (enrichAll store context ns).value = ns.map fun n => (enrichOne store context n).value := by
  induction ns with
  | nil => rfl
  | cons n rest ih =>
    rw [enrichAll, Logged.value_bind, Logged.value_bind, ih]
    rfl

/-! ### Merging -/

/-- The groups of notifications whose recipients are linked. -/
def groups (ns : List Notification) : List (List Nat) :=
  IdentifierSet.groupPositions (ns.map Notification.recipient)

theorem isGrouping_groups (ns : List Notification) :
    IdentifierSet.IsGrouping (ns.map Notification.recipient) (groups ns) :=
  IdentifierSet.isGrouping_groupPositions _

/-- One notification for several: the first of them, for the recipients of all of them. -/
structure StandsFor (ns : List Notification) (members : List Nat) (x : Notification) : Prop where
  first : ∃ i n, members.head? = some i ∧ ns[i]? = some n ∧ x = n.withRecipient x.recipient
  keysWithin : ∀ i ∈ members, ∀ n, ns[i]? = some n → n.recipient.KeysWithin x.recipient
  held : ∀ id ∈ x.recipient.toList, ∃ i ∈ members, ∃ n, ns[i]? = some n ∧ id ∈ n.recipient.toList

theorem collapse_singleton {ns : List Notification} {i : Nat} (hi : i < ns.length) :
    collapse ns [i] = some ns[i] := by
  have hlt : i < (ns.map Notification.recipient).length := by
    rwa [List.length_map]
  have hmerge := IdentifierSet.mergeGroup_singleton hlt
  rw [collapse, hmerge, List.getElem_map]
  simp [hi, Notification.withRecipient]

/-- A list is put together again from its positions. -/
theorem filterMap_range_eq {α : Type} {xs : List α} {f : Nat → Option α}
    (h : ∀ i (hi : i < xs.length), f i = some xs[i]) : (List.range xs.length).filterMap f = xs := by
  induction xs using List.reverseRecOn with
  | nil => rfl
  | append_singleton xs x ih =>
    have hbefore : (List.range xs.length).filterMap f = xs := by
      apply ih
      intro i hi
      rw [h i (by simp; omega), List.getElem_append_left hi]
    have hlast : f xs.length = some x := by
      rw [h xs.length (by simp), List.getElem_append_right (Nat.le_refl _)]
      simp
    rw [List.length_append, List.length_singleton, List.range_succ, List.filterMap_append, hbefore,
      List.filterMap_cons, hlast, List.filterMap_nil]

/-- Without anything to merge the list is what merging makes of it. -/
theorem value_mergeDuplicates (context : Context) (ns : List Notification) :
    (mergeDuplicates context ns).value = (groups ns).filterMap (collapse ns) := by
  unfold mergeDuplicates
  dsimp only
  split
  · rename_i hlength
    have hsingle := (isGrouping_groups ns).eq_singletons_of_length
      (by rw [List.length_map]; exact hlength)
    rw [hsingle, List.length_map, List.filterMap_map]
    exact (filterMap_range_eq fun i hi => collapse_singleton hi).symm
  · rfl

@[simp] theorem value_mergeDuplicates_singleton (context : Context) (n : Notification) :
    (mergeDuplicates context [n]).value = [n] := by
  have hgroups : groups [n] = [[0]] := (isGrouping_groups [n]).eq_singletons fun i hi j hj _ => by
    rw [List.length_map, List.length_singleton] at hi hj
    omega
  rw [value_mergeDuplicates, hgroups, List.filterMap_cons, collapse_singleton (by simp)]
  rfl

theorem forall₂_filterMap {α β : Type} {R : α → β → Prop} {f : α → Option β} {xs : List α}
    (h : ∀ a ∈ xs, ∃ b, f a = some b ∧ R a b) : List.Forall₂ R xs (xs.filterMap f) := by
  induction xs with
  | nil => exact .nil
  | cons a rest ih =>
    obtain ⟨b, hb, hab⟩ := h a List.mem_cons_self
    rw [List.filterMap_cons, hb]
    exact .cons hab (ih fun a ha => h a (List.mem_cons_of_mem _ ha))

theorem standsFor_collapse {ns : List Notification} {members : List Nat} (hne : members ≠ [])
    (hmembers : ∀ i ∈ members, i < ns.length) :
    ∃ x, collapse ns members = some x ∧ StandsFor ns members x := by
  obtain ⟨i, rest, rfl⟩ := List.exists_cons_of_ne_nil hne
  have hlt := hmembers i List.mem_cons_self
  have hi : ns[i]? = some ns[i] := List.getElem?_eq_getElem hlt
  refine ⟨_, by rw [collapse, List.head?_cons, Option.bind_some, hi, Option.map_some], ?_, ?_, ?_⟩
  · exact ⟨i, _, rfl, hi, rfl⟩
  · intro j hj n hn
    apply IdentifierSet.keysWithin_mergeGroup hj
    rw [List.getElem?_map, hn, Option.map_some]
  · intro id hid
    obtain ⟨j, hj, s, hs, hmem⟩ := IdentifierSet.mem_mergeGroup hid
    rw [List.getElem?_map, Option.map_eq_some_iff] at hs
    obtain ⟨n, hn, rfl⟩ := hs
    exact ⟨j, hj, n, hn, hmem⟩

theorem lt_length_of_mem_groups {ns : List Notification} {g : List Nat} (hg : g ∈ groups ns) :
    ∀ i ∈ g, i < ns.length := by
  intro i hi
  simpa using (isGrouping_groups ns).lt_length hg hi

theorem standsFor_mergeDuplicates (context : Context) (ns : List Notification) :
    List.Forall₂ (StandsFor ns) (groups ns) (mergeDuplicates context ns).value := by
  rw [value_mergeDuplicates]
  apply forall₂_filterMap
  intro g hg
  exact standsFor_collapse ((isGrouping_groups ns).inhabited g hg) (lt_length_of_mem_groups hg)

/-- Whatever merging leaves stands for a group. -/
theorem exists_standsFor {context : Context} {ns : List Notification} {x : Notification}
    (hx : x ∈ (mergeDuplicates context ns).value) : ∃ g ∈ groups ns, StandsFor ns g x := by
  rw [value_mergeDuplicates] at hx
  obtain ⟨g, hg, hcollapse⟩ := List.mem_filterMap.mp hx
  obtain ⟨x', hx', hstands⟩ :=
    standsFor_collapse ((isGrouping_groups ns).inhabited g hg) (lt_length_of_mem_groups hg)
  cases hcollapse.symm.trans hx'
  exact ⟨g, hg, hstands⟩

/-- Every notification has a group that something stands for. -/
theorem exists_standsFor_of_getElem? (context : Context) {ns : List Notification} {i : Nat}
    {n : Notification} (hn : ns[i]? = some n) :
    ∃ x ∈ (mergeDuplicates context ns).value, ∃ g ∈ groups ns, i ∈ g ∧ StandsFor ns g x := by
  have hi : i < (ns.map Notification.recipient).length := by
    rw [List.length_map]
    exact (List.getElem?_eq_some_iff.mp hn).1
  obtain ⟨g, hg, hig⟩ := (isGrouping_groups ns).exists_mem hi
  obtain ⟨x, hx, hstands⟩ :=
    standsFor_collapse ((isGrouping_groups ns).inhabited g hg) (lt_length_of_mem_groups hg)
  rw [value_mergeDuplicates]
  exact ⟨x, List.mem_filterMap.mpr ⟨g, hg, hx⟩, g, hg, hig, hstands⟩

/-- Merging notifications merges their recipients. -/
theorem recipients_mergeDuplicates (context : Context) (ns : List Notification) :
    (mergeDuplicates context ns).value.map Notification.recipient =
      IdentifierSet.mergeLinked (ns.map Notification.recipient) := by
  rw [value_mergeDuplicates, List.map_filterMap, IdentifierSet.mergeLinked]
  apply List.filterMap_eq_map_iff_forall_eq_some.mpr
  intro g hg
  obtain ⟨i, rest, rfl⟩ := List.exists_cons_of_ne_nil ((isGrouping_groups ns).inhabited g hg)
  have hlt := lt_length_of_mem_groups hg i List.mem_cons_self
  rw [collapse, List.head?_cons, Option.bind_some, List.getElem?_eq_getElem hlt]
  rfl

/-- No two of the notifications that are left share an identifier. -/
theorem disjoint_mergeDuplicates (context : Context) (ns : List Notification) :
    (mergeDuplicates context ns).value.Pairwise fun x y =>
      ∀ id ∈ x.recipient.toList, id ∉ y.recipient.toList := by
  have hmerges := (isGrouping_groups ns).merges_disjoint
  have hrecipients := recipients_mergeDuplicates context ns
  rw [IdentifierSet.mergeLinked] at hrecipients
  exact List.pairwise_map.mp (hrecipients ▸ hmerges)

/-! ### One notification per person -/

/-- What becomes of notifications in the end: they are completed and then fall into groups, and for each
group one notification is sent. -/
structure OnePerPerson (store : UserStore) (ns completed out : List Notification) : Prop where
  completion : List.Forall₂ (Completes store) ns completed
  grouping : IdentifierSet.IsGrouping (completed.map Notification.recipient) (groups completed)
  sending : List.Forall₂ (StandsFor completed) (groups completed) out
  /-- Notifications whose recipients are found to be the same user are in the same group. -/
  together : ∀ (i : Nat) (n : Notification) (u : User), ns[i]? = some n →
    (store.find n.recipient).value = .ok u → ∀ (j : Nat) (m : Notification) (v : User),
      ns[j]? = some m → (store.find m.recipient).value = .ok v → u.key = v.key →
        ∀ g ∈ groups completed, i ∈ g ↔ j ∈ g
  /-- Every notification is in one group only, and no key of its recipient gets lost. -/
  kept : ∀ (i : Nat) (n : Notification), ns[i]? = some n → ∃ n' : Notification,
    completed[i]? = some n' ∧ n.recipient.KeysWithin n'.recipient ∧
      ∃! k : Nat, ∃ (g : List Nat) (x : Notification), (groups completed)[k]? = some g ∧
        out[k]? = some x ∧ i ∈ g ∧ n'.recipient.KeysWithin x.recipient

theorem completed_getElem? {store : UserStore} {ns completed : List Notification}
    (h : List.Forall₂ (Completes store) ns completed) {i : Nat} {n : Notification}
    (hn : ns[i]? = some n) : ∃ n', completed[i]? = some n' ∧ Completes store n n' := by
  obtain ⟨hi, rfl⟩ := List.getElem?_eq_some_iff.mp hn
  have hi' : i < completed.length := h.length_eq ▸ hi
  exact ⟨_, List.getElem?_eq_getElem hi', h.get hi hi'⟩

/-- Completed for the same user, two recipients share what the user is known by. -/
theorem linked_of_find {store : UserStore} {users : Directory} (h : store.Keeps users)
    {ns completed : List Notification} (hcompletion : List.Forall₂ (Completes store) ns completed)
    {i j : Nat} {n m : Notification} {u v : User} (hi : ns[i]? = some n) (hj : ns[j]? = some m)
    (hu : (store.find n.recipient).value = .ok u) (hv : (store.find m.recipient).value = .ok v)
    (hkey : u.key = v.key) :
    IdentifierSet.Linked (completed.map Notification.recipient) i j := by
  obtain rfl := h.eq_of_find hu hv hkey
  obtain ⟨id, hid⟩ := List.exists_mem_of_ne_nil _ (h.identifiers_ne_nil hu)
  have hholds : ∀ {i : Nat} {n : Notification}, ns[i]? = some n →
      (store.find n.recipient).value = .ok u →
      IdentifierSet.HoldsAt (completed.map Notification.recipient) i id := by
    intro i n hi hu
    obtain ⟨n', hn', hcompletes⟩ := completed_getElem? hcompletion hi
    rw [IdentifierSet.holdsAt_iff, IdentifierSet.entryAt, List.getElem?_map, hn', Option.map_some,
      Option.bind_some, hcompletes.found u hu]
    rw [IdentifierSet.get?, Ascending.lookup?_eq_some_iff.mpr ⟨hid, rfl⟩, Option.some_or]
  exact IdentifierSet.linked_of_holdsAt (hholds hi hu) (hholds hj hv)

theorem value_enrich_deduplicate (store : UserStore) (e : Event) (ns : List Notification) :
    (runOn store e [.enrich] ns).value = .ok (enrichAll store e.context ns).value ∧
      (runOn store e [.enrich, .deduplicate] ns).value =
        .ok (mergeDuplicates e.context (enrichAll store e.context ns).value).value :=
  ⟨rfl, rfl⟩

/-- Every notification has its group and the notification sent for this group. -/
theorem exists_unique_sent {completed out : List Notification}
    (hsending : List.Forall₂ (StandsFor completed) (groups completed) out) {i : Nat}
    {n' : Notification} (hn' : completed[i]? = some n') :
    ∃! k : Nat, ∃ (g : List Nat) (x : Notification), (groups completed)[k]? = some g ∧
      out[k]? = some x ∧ i ∈ g ∧ n'.recipient.KeysWithin x.recipient := by
  have hgrouping := isGrouping_groups completed
  have hi : i < (completed.map Notification.recipient).length := by
    rw [List.length_map]
    exact (List.getElem?_eq_some_iff.mp hn').1
  obtain ⟨g, hg, hig⟩ := hgrouping.exists_mem hi
  obtain ⟨k, hk, rfl⟩ := List.getElem_of_mem hg
  have hk' : k < out.length := hsending.length_eq ▸ hk
  refine ⟨k, ⟨_, _, List.getElem?_eq_getElem hk, List.getElem?_eq_getElem hk', hig,
    (hsending.get hk hk').keysWithin i hig n' hn'⟩, ?_⟩
  rintro l ⟨g', x, hl, -, hig', -⟩
  exact hgrouping.index_eq hl (List.getElem?_eq_getElem hk) hig' hig

/-- Completing and then merging leaves one notification for each person: those for the same user become
one, and nobody who is addressed is forgotten. -/
theorem one_notification_per_person {store : UserStore} {users : Directory} (h : store.Keeps users)
    (e : Event) (ns : List Notification) :
    ∃ completed out, (runOn store e [.enrich] ns).value = .ok completed ∧
      (runOn store e [.enrich, .deduplicate] ns).value = .ok out ∧
      OnePerPerson store ns completed out := by
  obtain ⟨henrich, hdeduplicate⟩ := value_enrich_deduplicate store e ns
  refine ⟨_, _, henrich, hdeduplicate, ?_⟩
  have hcompletion : List.Forall₂ (Completes store) ns (enrichAll store e.context ns).value := by
    rw [value_enrichAll, List.forall₂_map_right_iff, List.forall₂_same]
    exact fun n _ => completes_enrichOne store e.context n
  have hgrouping := isGrouping_groups (enrichAll store e.context ns).value
  have hsending := standsFor_mergeDuplicates e.context (enrichAll store e.context ns).value
  refine ⟨hcompletion, hgrouping, hsending, ?_, ?_⟩
  · intro i n u hi hu j m v hj hv hkey g hg
    have hlinked := linked_of_find h hcompletion hi hj hu hv hkey
    have hlt : ∀ {i : Nat} {n : Notification}, ns[i]? = some n →
        i < ((enrichAll store e.context ns).value.map Notification.recipient).length := by
      intro i n hi
      rw [List.length_map, ← hcompletion.length_eq]
      exact (List.getElem?_eq_some_iff.mp hi).1
    constructor
    · intro hig
      exact (hgrouping.linked_iff g hg i hig j (hlt hj)).mpr hlinked
    · intro hjg
      exact (hgrouping.linked_iff g hg j hjg i (hlt hi)).mpr hlinked.symm
  · intro i n hi
    obtain ⟨n', hn', hcompletes⟩ := completed_getElem? hcompletion hi
    exact ⟨n', hn', hcompletes.keysWithin, exists_unique_sent hsending hn'⟩

/-! An example: a user is addressed once under a name and once under an address, which is stored for
another system. -/

/-- The address of the user. -/
def sampleMail (space : Option String) (h : ∀ s ∈ space, Identifier.Plain s) : Identifier :=
  ⟨⟨space, "email", h, by decide⟩, "ada@example.org", by decide⟩

/-- The name of the user. -/
def sampleName : Identifier :=
  ⟨⟨some "github.com", "username", by decide, by decide⟩, "ada", by decide⟩

/-- The only user. -/
def samplePerson : User :=
  ⟨"ada", .ofList [sampleMail none (by decide), sampleName], ∅⟩

/-- A table with this user. -/
def samplePeople : UserStore :=
  ⟨.table (.ofDirectory [samplePerson]), none⟩

theorem sampleId_ne_empty : ¬"1" = "" := by
  decide

/-- The event that the user is notified of. -/
def sampleEvent : Event :=
  ⟨⟨"1", "/example", "com.example.message_sent", none, none, ∅, sampleId_ne_empty, by decide⟩,
    .message ⟨"bob", "ada@example.org", "hi"⟩⟩

/-- Two notifications for the user. -/
def sampleNotifications : List Notification :=
  [(Notification.about sampleEvent.context).withRecipient
    (.singleton (sampleMail (some "slack.com") Slack.defaultUserId.space_plain)),
    (Notification.about sampleEvent.context).withRecipient (.singleton sampleName)]

theorem one_notification_per_person_sample :
    samplePeople.Keeps [samplePerson] ∧
      (∀ n ∈ sampleNotifications, (samplePeople.find n.recipient).value = .ok samplePerson) ∧
      ∃ completed out,
        (runOn samplePeople sampleEvent [.enrich] sampleNotifications).value = .ok completed ∧
        (runOn samplePeople sampleEvent [.enrich, .deduplicate] sampleNotifications).value =
          .ok out ∧
        OnePerPerson samplePeople sampleNotifications completed out := by
  have hkeeps : samplePeople.Keeps [samplePerson] := ⟨List.nodup_singleton _, rfl, .inr rfl⟩
  refine ⟨hkeeps, ?_, one_notification_per_person hkeeps sampleEvent sampleNotifications⟩
  simp only [sampleNotifications, List.forall_mem_cons, hkeeps.find]
  exact ⟨by rfl, by rfl, by simp⟩

end Processor

end Herald
