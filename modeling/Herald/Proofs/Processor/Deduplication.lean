import Herald.Proofs.Processor.Yield

/-!
Deduplication. For every group of linked recipients one notification is left, which says to all of them
what the first one was to be told. It is the same whether or not the list is regrouped where nothing is
linked, and doing it again changes nothing.
-/

namespace Herald.Processor

variable {ns : List Notification} {context : Context}

/-! ### Nothing to merge -/

/-- No two of the notifications are for linked recipients. -/
def Unlinked (ns : List Notification) : Prop :=
  ∀ i < ns.length, ∀ j < ns.length,
    IdentifierSet.Linked (ns.map Notification.recipient) i j → i = j

theorem groups_eq_singletons_iff : groups ns = (List.range ns.length).map ([·]) ↔ Unlinked ns := by
  have hgrouping := isGrouping_groups ns
  constructor
  · intro hsingle i hi j hj hlinked
    have hg : [i] ∈ groups ns := by
      rw [hsingle]
      exact List.mem_map_of_mem (List.mem_range.mpr hi)
    have hmem := (hgrouping.linked_iff [i] hg i (List.mem_singleton_self i) j
      (by rwa [List.length_map])).mpr hlinked
    exact (List.mem_singleton.mp hmem).symm
  · intro hunlinked
    have hsingle := hgrouping.eq_singletons (by rwa [List.length_map])
    rwa [List.length_map] at hsingle

/-- There are as many groups as notifications only where nothing is linked. -/
theorem length_groups_eq_iff : (groups ns).length = ns.length ↔ Unlinked ns := by
  rw [← groups_eq_singletons_iff]
  constructor
  · intro hlength
    have hsingle := (isGrouping_groups ns).eq_singletons_of_length (by rwa [List.length_map])
    rwa [List.length_map] at hsingle
  · intro hsingle
    rw [hsingle, List.length_map, List.length_range]

theorem mergeDuplicates_of_unlinked (h : Unlinked ns) (context : Context) :
    mergeDuplicates context ns = .pure ns := by
  unfold mergeDuplicates
  exact if_pos (length_groups_eq_iff.mpr h)

/-- Notifications that share no identifiers are not linked. -/
theorem unlinked_of_disjoint
    (h : ns.Pairwise fun x y => ∀ id ∈ x.recipient.toList, id ∉ y.recipient.toList) :
    Unlinked ns :=
  fun _ _ _ _ hlinked => IdentifierSet.eq_of_linked (List.pairwise_map.mpr h) hlinked

/-- What was merged is not linked any more. -/
theorem unlinked_mergeDuplicates (context : Context) (ns : List Notification) :
    Unlinked (mergeDuplicates context ns).value :=
  unlinked_of_disjoint (disjoint_mergeDuplicates context ns)

/-! ### Notifications for nobody -/

/-- The first positions of the groups. -/
def heads (ns : List Notification) : List Nat :=
  (groups ns).filterMap List.head?

theorem pairwise_heads (ns : List Notification) : (heads ns).Pairwise (· < ·) :=
  List.pairwise_filterMap.mpr (isGrouping_groups ns).ordered

theorem lt_length_of_mem_heads {i : Nat} (h : i ∈ heads ns) : i < ns.length := by
  obtain ⟨g, hg, hhead⟩ := List.mem_filterMap.mp h
  exact lt_length_of_mem_groups hg i (List.mem_of_head? hhead)

/-- The notification at this position is for nobody. -/
def isBlankAt (ns : List Notification) (i : Nat) : Bool :=
  ns[i]?.any fun n => n.recipient.isEmpty

/-- A notification for nobody is a group of its own. -/
theorem singleton_mem_groups {i : Nat} {n : Notification} (hn : ns[i]? = some n)
    (hempty : n.recipient.isEmpty) : [i] ∈ groups ns := by
  have hgrouping := isGrouping_groups ns
  have hi : i < (ns.map Notification.recipient).length := by
    rw [List.length_map]
    exact (List.getElem?_eq_some_iff.mp hn).1
  obtain ⟨g, hg, hig⟩ := hgrouping.exists_mem hi
  have honly : ∀ j ∈ g, j = i := fun j hj =>
    eq_of_linked_of_isEmpty hn hempty
      ((hgrouping.linked_iff g hg i hig j (hgrouping.lt_length hg hj)).mp hj)
  obtain ⟨j, rest, rfl⟩ := List.exists_cons_of_ne_nil (hgrouping.inhabited g hg)
  obtain rfl := honly j List.mem_cons_self
  have hnil : rest = [] := by
    refine List.eq_nil_iff_forall_not_mem.mpr fun k hk => ?_
    have hlt := (List.pairwise_cons.mp (hgrouping.ascending _ hg)).1 k hk
    exact absurd (honly k (List.mem_cons_of_mem _ hk)) (Nat.ne_of_gt hlt)
  rwa [hnil] at hg

theorem filter_heads_isBlankAt (ns : List Notification) :
    (heads ns).filter (isBlankAt ns) = (List.range ns.length).filter (isBlankAt ns) := by
  have hheads := (pairwise_heads ns).filter (isBlankAt ns)
  have hrange := (List.pairwise_lt_range (n := ns.length)).filter (isBlankAt ns)
  refine List.Perm.eq_of_pairwise (fun _ _ _ _ hab hba => absurd hab (Nat.lt_asymm hba)) hheads hrange
    ((List.perm_ext_iff_of_nodup (hheads.imp Nat.ne_of_lt) (hrange.imp Nat.ne_of_lt)).mpr fun i => ?_)
  rw [List.mem_filter, List.mem_filter, List.mem_range]
  refine and_congr_left fun hblank => ⟨lt_length_of_mem_heads, fun _ => ?_⟩
  obtain ⟨n, hn, hempty⟩ := (Option.any_eq_true _ _).mp hblank
  exact List.mem_filterMap.mpr ⟨[i], singleton_mem_groups hn hempty, rfl⟩

theorem eq_of_mem_groups {g g' : List Nat} (hg : g ∈ groups ns) (hg' : g' ∈ groups ns) {i : Nat}
    (hi : i ∈ g) (hi' : i ∈ g') : g = g' := by
  obtain ⟨k, hk⟩ := List.mem_iff_getElem?.mp hg
  obtain ⟨l, hl⟩ := List.mem_iff_getElem?.mp hg'
  obtain rfl := (isGrouping_groups ns).index_eq hk hl hi hi'
  exact Option.some.inj (hk.symm.trans hl)

/-- A group is for nobody if its first member is, and then it has no other. -/
theorem filter_collapse {g : List Nat} (hg : g ∈ groups ns) :
    (collapse ns g).filter (fun x => x.recipient.isEmpty) =
      g.head?.bind fun i => if isBlankAt ns i then ns[i]? else none := by
  obtain ⟨x, hx, hstands⟩ :=
    standsFor_collapse ((isGrouping_groups ns).inhabited g hg) (lt_length_of_mem_groups hg)
  obtain ⟨i, n, hhead, hn, -⟩ := hstands.first
  have hig := List.mem_of_head? hhead
  have hblank : isBlankAt ns i = n.recipient.isEmpty := by
    rw [isBlankAt, hn]
    rfl
  have hsame : x.recipient.isEmpty = n.recipient.isEmpty := hstands.isEmpty_eq hg hig hn
  rw [hx, hhead, Option.bind_some, hblank]
  cases hempty : n.recipient.isEmpty with
  | false => simp [Option.filter, hsame, hempty]
  | true =>
    obtain rfl := eq_of_mem_groups hg (singleton_mem_groups hn hempty) hig (List.mem_singleton_self i)
    rw [collapse_singleton (List.getElem?_eq_some_iff.mp hn).1, ← List.getElem?_eq_getElem] at hx
    rw [hx]
    simp [Option.filter, hsame, hempty]

theorem filter_eq_filterMap_range (ns : List Notification) :
    ns.filter (fun n => n.recipient.isEmpty) =
      ((List.range ns.length).filter (isBlankAt ns)).filterMap (ns[·]?) := by
  have hwhole : (List.range ns.length).filterMap (ns[·]?) = ns :=
    filterMap_range_eq fun i hi => List.getElem?_eq_getElem hi
  conv_lhs => rw [← hwhole]
  rw [List.filter_filterMap, List.filterMap_filter]
  refine List.filterMap_congr fun i _ => ?_
  unfold isBlankAt
  cases ns[i]? <;> rfl

/-- Those for nobody are left as they are, in order. -/
theorem filter_mergeDuplicates (context : Context) (ns : List Notification) :
    ((mergeDuplicates context ns).value.filter fun x => x.recipient.isEmpty) =
      ns.filter fun n => n.recipient.isEmpty := by
  rw [value_mergeDuplicates, filter_eq_filterMap_range ns, ← filter_heads_isBlankAt, heads,
    List.filterMap_filter, List.filter_filterMap, List.filterMap_filterMap]
  exact List.filterMap_congr fun g hg => filter_collapse hg

/-! ### Deduplication -/

/-- What deduplication leaves of notifications: for every group one, for the merge of all recipients. -/
structure Deduplicated (ns out : List Notification) : Prop where
  grouping : IdentifierSet.IsGrouping (ns.map Notification.recipient) (groups ns)
  recipients : out.map Notification.recipient =
    IdentifierSet.mergeLinked (ns.map Notification.recipient)
  /-- It says what the first member of the group says. -/
  content : List.Forall₂ (fun g x => ∃ i n, g.head? = some i ∧ ns[i]? = some n ∧
    x.context = n.context ∧ x.message = n.message ∧ x.messages = n.messages ∧
    x.options = n.options) (groups ns) out
  /-- Notifications for nobody are groups of their own, and all of them are left as they are. -/
  blank : ∀ i n, ns[i]? = some n → n.recipient.isEmpty → [i] ∈ groups ns
  blanks : (out.filter fun x => x.recipient.isEmpty) = ns.filter fun n => n.recipient.isEmpty

theorem deduplicated_mergeDuplicates (context : Context) (ns : List Notification) :
    Deduplicated ns (mergeDuplicates context ns).value where
  grouping := isGrouping_groups ns
  recipients := recipients_mergeDuplicates context ns
  content := by
    refine (standsFor_mergeDuplicates context ns).imp fun g x hstands => ?_
    obtain ⟨i, n, hhead, hn, hx⟩ := hstands.first
    refine ⟨i, n, hhead, hn, ?_⟩
    rw [hx]
    exact ⟨rfl, rfl, rfl, rfl⟩
  blank _ _ := singleton_mem_groups
  blanks := filter_mergeDuplicates context ns

/-- The list stays untouched just where nothing is linked, and this is what regrouping would give. -/
structure SkipsUnlinked (ns : List Notification) (processed : Processed) : Prop where
  iff_unlinked : (groups ns).length = ns.length ↔ Unlinked ns
  skipped : Unlinked ns → processed = .pure (.ok ns)
  regrouped : processed.value = .ok ((groups ns).filterMap (collapse ns))

/-- Deduplication leaves one notification for each group of linked recipients. It skips the regrouping
where it would change nothing, and does nothing to what it has left itself. -/
theorem deduplicate_leaves_one_per_group (store : UserStore) (e : Event) (ns : List Notification) :
    ∃ out, (Processor.deduplicate.process store e ns).value = .ok out ∧ Deduplicated ns out ∧
      SkipsUnlinked ns (Processor.deduplicate.process store e ns) ∧
      ∀ e', Processor.deduplicate.process store e' out = .pure (.ok out) := by
  have hprocess : ∀ (e : Event) {ns : List Notification}, Unlinked ns →
      Processor.deduplicate.process store e ns = .pure (.ok ns) := by
    intro e ns hunlinked
    rw [process, mergeDuplicates_of_unlinked hunlinked]
    rfl
  refine ⟨(mergeDuplicates e.context ns).value, rfl, deduplicated_mergeDuplicates e.context ns,
    ⟨length_groups_eq_iff, hprocess e, ?_⟩, fun e' => hprocess e' (unlinked_mergeDuplicates _ ns)⟩
  exact congrArg Except.ok (value_mergeDuplicates e.context ns)

end Herald.Processor
