import Herald.Identifier.Grouping
import Herald.Proofs.Identifier.Forest
import Herald.Proofs.Identifier.Set
import Mathlib.Logic.Relation

/-!
Groups of linked sets. The groups found are the components of the relation of sharing an identifier,
each group is merged with the last value of every key, and what is merged shares nothing any more.
-/

namespace Herald.IdentifierSet

/-- The set at position `i` holds `id`. -/
def HoldsAt (sets : List IdentifierSet) (i : Nat) (id : Identifier) : Prop :=
  ∃ s, sets[i]? = some s ∧ id ∈ s.toList

/-- The sets at two positions hold a common identifier. -/
def Shares (sets : List IdentifierSet) (i j : Nat) : Prop :=
  ∃ id, HoldsAt sets i id ∧ HoldsAt sets j id

/-- A chain of positions leads from one to the other in which neighbours share an identifier. -/
def Linked (sets : List IdentifierSet) : Nat → Nat → Prop :=
  Relation.ReflTransGen (Shares sets)

theorem HoldsAt.lt {sets : List IdentifierSet} {i : Nat} {id : Identifier}
    (h : HoldsAt sets i id) : i < sets.length := by
  obtain ⟨s, hs, -⟩ := h
  exact (List.getElem?_eq_some_iff.mp hs).1

theorem Shares.symm {sets : List IdentifierSet} {i j : Nat} (h : Shares sets i j) :
    Shares sets j i := by
  obtain ⟨id, hi, hj⟩ := h
  exact ⟨id, hj, hi⟩

theorem Linked.symm {sets : List IdentifierSet} {i j : Nat} (h : Linked sets i j) :
    Linked sets j i := by
  have : Std.Symm (Shares sets) := ⟨fun _ _ h => h.symm⟩
  exact Relation.ReflTransGen.stdSymm.symm i j h

theorem Linked.trans {sets : List IdentifierSet} {i j k : Nat} (h : Linked sets i j)
    (h' : Linked sets j k) : Linked sets i k :=
  Relation.ReflTransGen.trans h h'

theorem linked_of_holdsAt {sets : List IdentifierSet} {i j : Nat} {id : Identifier}
    (hi : HoldsAt sets i id) (hj : HoldsAt sets j id) : Linked sets i j :=
  .single ⟨id, hi, hj⟩

/-! ### The search for classes -/

/-- What holds of the search when the identifiers `seen`, each with its position, have been visited:
positions of one class are linked, and all positions seen with an identifier are in the class of its
first holder. -/
structure Scan.Correct (sets : List IdentifierSet) (seen : List (Identifier × Nat))
    (scan : Scan) : Prop where
  sound : scan.forest.Sound sets.length
  linked : ∀ x < sets.length, ∀ y < sets.length,
    scan.forest.root x = scan.forest.root y → Linked sets x y
  holds : ∀ id p, (id, p) ∈ seen → HoldsAt sets p id
  owner : ∀ id p, scan.owners.lookup id = some p → HoldsAt sets p id
  joined : ∀ id p, (id, p) ∈ seen →
    ∃ q, scan.owners.lookup id = some q ∧ scan.forest.root p = scan.forest.root q

namespace Scan.Correct

variable {sets : List IdentifierSet} {seen : List (Identifier × Nat)} {scan : Scan}

theorem visit (h : scan.Correct sets seen) {id : Identifier} {p : Nat}
    (hp : HoldsAt sets p id) : (scan.visit p id).Correct sets (seen ++ [(id, p)]) := by
  have hholds : ∀ id' p', (id', p') ∈ seen ++ [(id, p)] → HoldsAt sets p' id' := by
    intro id' p' hmem
    rcases List.mem_append.mp hmem with hmem | hmem
    · exact h.holds id' p' hmem
    · obtain ⟨rfl, rfl⟩ := Prod.mk.inj (List.mem_singleton.mp hmem)
      exact hp
  unfold Scan.visit
  cases hlookup : scan.owners.lookup id with
  | some q =>
    have hq := h.owner id q hlookup
    refine ⟨h.sound.union hq.lt hp.lt, ?_, hholds, h.owner, ?_⟩
    · intro x hx y hy hroot
      have toClass : ∀ z < sets.length, (scan.forest.root z = scan.forest.root q ∨
          scan.forest.root z = scan.forest.root p) → Linked sets z q := by
        rintro z hz (hz' | hz')
        · exact h.linked z hz q hq.lt hz'
        · exact (h.linked z hz p hp.lt hz').trans (linked_of_holdsAt hp hq)
      rcases (h.sound.root_union_eq_iff hq.lt hp.lt hx hy).mp hroot with hsame | ⟨hxc, hyc⟩
      · exact h.linked x hx y hy hsame
      · exact (toClass x hx hxc).trans (toClass y hy hyc).symm
    · intro id' p' hmem
      rcases List.mem_append.mp hmem with hmem | hmem
      · obtain ⟨q', hq', hroot⟩ := h.joined id' p' hmem
        refine ⟨q', hq', ?_⟩
        rw [h.sound.root_union_eq_iff hq.lt hp.lt (h.holds id' p' hmem).lt
          (h.owner id' q' hq').lt]
        exact Or.inl hroot
      · obtain ⟨rfl, rfl⟩ := Prod.mk.inj (List.mem_singleton.mp hmem)
        refine ⟨q, hlookup, ?_⟩
        rw [h.sound.root_union_eq_iff hq.lt hp.lt hp.lt hq.lt]
        exact Or.inr ⟨Or.inr rfl, Or.inl rfl⟩
  | none =>
    refine ⟨h.sound, h.linked, hholds, ?_, ?_⟩
    · intro id' q hq
      by_cases heq : id' = id
      · subst heq
        rw [List.lookup_cons_self] at hq
        exact Option.some.inj hq ▸ hp
      · rw [List.lookup_cons, beq_false_of_ne heq] at hq
        exact h.owner id' q hq
    · intro id' p' hmem
      rcases List.mem_append.mp hmem with hmem | hmem
      · obtain ⟨q, hq, hroot⟩ := h.joined id' p' hmem
        refine ⟨q, ?_, hroot⟩
        have hne : id' ≠ id := by
          rintro rfl
          rw [hlookup] at hq
          cases hq
        rw [List.lookup_cons, beq_false_of_ne hne]
        exact hq
      · obtain ⟨rfl, rfl⟩ := Prod.mk.inj (List.mem_singleton.mp hmem)
        exact ⟨p', List.lookup_cons_self, rfl⟩

theorem visitAll (h : scan.Correct sets seen) {p : Nat} (ids : List Identifier)
    (hids : ∀ id ∈ ids, HoldsAt sets p id) :
    (ids.foldl (Scan.visit p) scan).Correct sets (seen ++ ids.map (·, p)) := by
  induction ids generalizing scan seen with
  | nil => simpa using h
  | cons id rest ih =>
    have hnext := h.visit (hids id List.mem_cons_self)
    have := ih hnext fun id' hid' => hids id' (List.mem_cons_of_mem id hid')
    simpa using this

theorem visitSets (h : scan.Correct sets seen) (entries : List (IdentifierSet × Nat))
    (hentries : ∀ e ∈ entries, sets[e.2]? = some e.1) :
    (entries.foldl Scan.visitSet scan).Correct sets
      (seen ++ entries.flatMap fun e => e.1.toList.map (·, e.2)) := by
  induction entries generalizing scan seen with
  | nil => simpa using h
  | cons e rest ih =>
    have hnext := h.visitAll (p := e.2) e.1.toList fun id hid =>
      ⟨e.1, hentries e List.mem_cons_self, hid⟩
    rw [List.flatMap_cons, ← List.append_assoc]
    exact ih hnext fun e' he' => hentries e' (List.mem_cons_of_mem e he')

end Scan.Correct

theorem scan_correct_start (sets : List IdentifierSet) :
    Scan.Correct sets [] ⟨.discrete sets.length, []⟩ where
  sound := Forest.sound_discrete sets.length
  linked := by
    intro x _ y _ hroot
    rw [Forest.root_discrete, Forest.root_discrete] at hroot
    exact hroot ▸ .refl
  holds := by simp
  owner := by simp
  joined := by simp

theorem sound_classes (sets : List IdentifierSet) : (classes sets).Sound sets.length :=
  ((scan_correct_start sets).visitSets sets.zipIdx fun _ he =>
    List.mem_zipIdx_iff_getElem?.mp he).sound

/-- Two positions are in one class exactly if they are linked. -/
theorem root_classes_eq_iff {sets : List IdentifierSet} {i j : Nat} (hi : i < sets.length)
    (hj : j < sets.length) :
    (classes sets).root i = (classes sets).root j ↔ Linked sets i j := by
  have hscan := (scan_correct_start sets).visitSets sets.zipIdx fun _ he =>
    List.mem_zipIdx_iff_getElem?.mp he
  have hseen : ∀ id p, HoldsAt sets p id →
      (id, p) ∈ [] ++ sets.zipIdx.flatMap fun e => e.1.toList.map (·, e.2) := by
    rintro id p ⟨s, hs, hid⟩
    rw [List.nil_append, List.mem_flatMap]
    exact ⟨(s, p), List.mem_zipIdx_iff_getElem?.mpr hs, List.mem_map.mpr ⟨id, hid, rfl⟩⟩
  refine ⟨hscan.linked i hi j hj, fun hlinked => ?_⟩
  clear hj
  induction hlinked with
  | refl => rfl
  | tail _ hshare ih =>
    obtain ⟨id, hfirst, hsecond⟩ := hshare
    obtain ⟨p, hp, hroot⟩ := hscan.joined id _ (hseen id _ hfirst)
    obtain ⟨q, hq, hroot'⟩ := hscan.joined id _ (hseen id _ hsecond)
    obtain rfl : p = q := Option.some.inj (hp.symm.trans hq)
    exact ih.trans (hroot.trans hroot'.symm)

/-! ### Filing positions under their roots -/

/-- The positions below `count`, filed in groups under their labels: each group holds all of its label,
and groups stand in order of their first members. -/
structure Filed (label : Nat → Nat) (count : Nat) (groups : List (Nat × List Nat)) : Prop where
  members : ∀ g ∈ groups, g.2 = (List.range count).filter fun i => label i = g.1
  inhabited : ∀ g ∈ groups, g.2 ≠ []
  filed : ∀ i < count, label i ∈ groups.map Prod.fst
  distinct : (groups.map Prod.fst).Nodup
  ordered : groups.Pairwise fun g h => ∀ i ∈ g.2.head?, ∀ j ∈ h.2, i < j

theorem addToGroup_of_notMem {root position : Nat} {groups : List (Nat × List Nat)}
    (h : root ∉ groups.map Prod.fst) :
    addToGroup root position groups = groups ++ [(root, [position])] := by
  induction groups with
  | nil => rfl
  | cons g rest ih =>
    rw [List.map_cons, List.mem_cons, not_or] at h
    rw [addToGroup, if_neg (Ne.symm h.1), ih h.2, List.cons_append]

/-- The group with `position` at its end if it has this root. -/
def extendIf (root position : Nat) (g : Nat × List Nat) : Nat × List Nat :=
  if g.1 = root then (g.1, g.2 ++ [position]) else g

@[simp] theorem fst_extendIf (root position : Nat) (g : Nat × List Nat) :
    (extendIf root position g).1 = g.1 := by
  unfold extendIf
  split <;> rfl

@[simp] theorem map_fst_extendIf (root position : Nat) (groups : List (Nat × List Nat)) :
    (groups.map (extendIf root position)).map Prod.fst = groups.map Prod.fst := by
  rw [List.map_map]
  exact List.map_congr_left fun g _ => fst_extendIf root position g

theorem map_extendIf_of_notMem {root position : Nat} {groups : List (Nat × List Nat)}
    (h : root ∉ groups.map Prod.fst) : groups.map (extendIf root position) = groups := by
  induction groups with
  | nil => rfl
  | cons g rest ih =>
    rw [List.map_cons, List.mem_cons, not_or] at h
    rw [List.map_cons, ih h.2, extendIf, if_neg (Ne.symm h.1)]

theorem addToGroup_of_mem {root position : Nat} {groups : List (Nat × List Nat)}
    (h : root ∈ groups.map Prod.fst) (hdistinct : (groups.map Prod.fst).Nodup) :
    addToGroup root position groups = groups.map (extendIf root position) := by
  induction groups with
  | nil => simp at h
  | cons g rest ih =>
    rw [List.map_cons, List.nodup_cons] at hdistinct
    by_cases hg : g.1 = root
    · have hrest : root ∉ rest.map Prod.fst := hg ▸ hdistinct.1
      rw [addToGroup, if_pos hg, List.map_cons, map_extendIf_of_notMem hrest, extendIf, if_pos hg]
    · have hrest : root ∈ rest.map Prod.fst := by
        rw [List.map_cons, List.mem_cons] at h
        exact h.resolve_left fun heq => hg heq.symm
      have hhead : extendIf root position g = g := if_neg hg
      rw [addToGroup, if_neg hg, List.map_cons, ih hrest hdistinct.2, hhead]

namespace Filed

variable {label : Nat → Nat} {count : Nat} {groups : List (Nat × List Nat)}

theorem lt_count (h : Filed label count groups) {g : Nat × List Nat} (hg : g ∈ groups) {i : Nat}
    (hi : i ∈ g.2) : i < count := by
  rw [h.members g hg] at hi
  exact List.mem_range.mp (List.mem_of_mem_filter hi)

theorem empty (label : Nat → Nat) : Filed label 0 [] where
  members := by simp
  inhabited := by simp
  filed := by simp
  distinct := by simp
  ordered := by simp

theorem filter_range_succ (label : Nat → Nat) (count r : Nat) :
    ((List.range (count + 1)).filter fun i => label i = r) =
      ((List.range count).filter fun i => label i = r) ++ if label count = r then [count] else [] := by
  rw [List.range_succ, List.filter_append]
  congr 1
  by_cases h : label count = r <;> simp [h]

/-- The next position has a label that is known. -/
theorem extend (h : Filed label count groups) (hmem : label count ∈ groups.map Prod.fst) :
    Filed label (count + 1) (groups.map (extendIf (label count) count)) where
  members := by
    intro g' hg'
    obtain ⟨g, hg, rfl⟩ := List.mem_map.mp hg'
    rw [filter_range_succ, fst_extendIf, ← h.members g hg, extendIf]
    by_cases heq : g.1 = label count
    · simp [heq]
    · simp [heq, Ne.symm heq]
  inhabited := by
    intro g' hg'
    obtain ⟨g, hg, rfl⟩ := List.mem_map.mp hg'
    have := h.inhabited g hg
    unfold extendIf
    split <;> simp [this]
  filed := by
    intro i hi
    rw [map_fst_extendIf]
    rcases Nat.lt_succ_iff_lt_or_eq.mp hi with hi | rfl
    · exact h.filed i hi
    · exact hmem
  distinct := by
    rw [map_fst_extendIf]
    exact h.distinct
  ordered := by
    rw [List.pairwise_map]
    apply h.ordered.imp_of_mem
    intro g g' hg hg' hlt i hi j hj
    have hhead : (extendIf (label count) count g).2.head? = g.2.head? := by
      unfold extendIf
      split
      · exact List.head?_append_of_ne_nil _ (h.inhabited g hg)
      · rfl
    rw [hhead] at hi
    have hj' : j ∈ g'.2 ∨ j = count := by
      unfold extendIf at hj
      split at hj
      · simpa using hj
      · exact Or.inl hj
    rcases hj' with hj' | rfl
    · exact hlt i hi j hj'
    · exact h.lt_count hg (List.mem_of_mem_head? hi)

/-- The next position has a new label. -/
theorem openGroup (h : Filed label count groups) (hnew : label count ∉ groups.map Prod.fst) :
    Filed label (count + 1) (groups ++ [(label count, [count])]) where
  members := by
    intro g hg
    rw [filter_range_succ]
    rcases List.mem_append.mp hg with hg | hg
    · have hne : label count ≠ g.1 := fun heq =>
        hnew (heq ▸ List.mem_map_of_mem hg)
      rw [if_neg hne, List.append_nil, ← h.members g hg]
    · obtain rfl := List.mem_singleton.mp hg
      have hnone : ((List.range count).filter fun i => label i = label count) = [] := by
        rw [List.filter_eq_nil_iff]
        intro i hi
        have := h.filed i (List.mem_range.mp hi)
        simp only [decide_eq_true_eq]
        intro heq
        exact hnew (heq ▸ this)
      rw [hnone, if_pos rfl, List.nil_append]
  inhabited := by
    intro g hg
    rcases List.mem_append.mp hg with hg | hg
    · exact h.inhabited g hg
    · obtain rfl := List.mem_singleton.mp hg
      simp
  filed := by
    intro i hi
    rw [List.map_append, List.mem_append]
    rcases Nat.lt_succ_iff_lt_or_eq.mp hi with hi | rfl
    · exact Or.inl (h.filed i hi)
    · exact Or.inr (by simp)
  distinct := by
    rw [List.map_append, List.nodup_append]
    refine ⟨h.distinct, by simp, ?_⟩
    intro r hr r' hr' heq
    obtain rfl : r' = label count := by simpa using hr'
    exact hnew (heq ▸ hr)
  ordered := by
    rw [List.pairwise_append]
    refine ⟨h.ordered, by simp, ?_⟩
    intro g hg g' hg' i hi j hj
    obtain rfl := List.mem_singleton.mp hg'
    obtain rfl : j = count := by simpa using hj
    exact h.lt_count hg (List.mem_of_mem_head? hi)

theorem step (h : Filed label count groups) :
    Filed label (count + 1) (addToGroup (label count) count groups) := by
  by_cases hmem : label count ∈ groups.map Prod.fst
  · rw [addToGroup_of_mem hmem h.distinct]
    exact h.extend hmem
  · rw [addToGroup_of_notMem hmem]
    exact h.openGroup hmem

end Filed

/-- Filing position after position leaves the roots alone and files all of them. -/
theorem filed_range {f : Forest} {n : Nat} (h : f.Sound n) {count : Nat} (hcount : count ≤ n) :
    ((List.range count).foldl file (f, [])).1.Sound n ∧
      (∀ x < n, ((List.range count).foldl file (f, [])).1.root x = f.root x) ∧
      Filed f.root count ((List.range count).foldl file (f, [])).2 := by
  induction count with
  | zero => exact ⟨h, fun _ _ => rfl, Filed.empty f.root⟩
  | succ count ih =>
    obtain ⟨hsound, hroots, hfiled⟩ := ih (Nat.le_of_succ_le hcount)
    have hlt : count < n := hcount
    rw [List.range_succ, List.foldl_append]
    refine ⟨hsound.find hlt, fun x hx => ?_, ?_⟩
    · exact (hsound.root_find hlt hx).trans (hroots x hx)
    · have hstep := hfiled.step
      rwa [← hroots count hlt] at hstep

/-- The groups of linked positions: every position is in one of them, members ascend, groups stand in
order of their first members, and a group holds whatever is linked to one of its members. -/
structure IsGrouping (sets : List IdentifierSet) (groups : List (List Nat)) : Prop where
  covers : groups.flatten.Perm (List.range sets.length)
  inhabited : ∀ g ∈ groups, g ≠ []
  ascending : ∀ g ∈ groups, g.Pairwise (· < ·)
  ordered : groups.Pairwise fun g h => ∀ i ∈ g.head?, ∀ j ∈ h.head?, i < j
  linked_iff : ∀ g ∈ groups, ∀ i ∈ g, ∀ j < sets.length, j ∈ g ↔ Linked sets i j

theorem filed_groups (sets : List IdentifierSet) :
    ∃ filed, Filed (classes sets).root sets.length filed ∧
      groupPositions sets = filed.map Prod.snd :=
  ⟨_, (filed_range (sound_classes sets) (Nat.le_refl _)).2.2, rfl⟩

theorem isGrouping_of_filed {sets : List IdentifierSet} {filed : List (Nat × List Nat)}
    (h : Filed (classes sets).root sets.length filed) : IsGrouping sets (filed.map Prod.snd) where
  covers := by
    rw [List.perm_ext_iff_of_nodup _ List.nodup_range]
    · intro i
      simp only [List.mem_flatten, List.mem_map, List.mem_range]
      constructor
      · rintro ⟨_, ⟨g, hg, rfl⟩, hi⟩
        exact h.lt_count hg hi
      · intro hi
        obtain ⟨g, hg, hlabel⟩ := List.mem_map.mp (h.filed i hi)
        refine ⟨g.2, ⟨g, hg, rfl⟩, ?_⟩
        rw [h.members g hg]
        exact List.mem_filter.mpr ⟨List.mem_range.mpr hi, decide_eq_true hlabel.symm⟩
    · rw [List.nodup_flatten, List.pairwise_map]
      refine ⟨?_, ?_⟩
      · intro g' hg'
        obtain ⟨g, hg, rfl⟩ := List.mem_map.mp hg'
        rw [h.members g hg]
        exact List.nodup_range.filter _
      · apply (List.pairwise_map.mp h.distinct).imp_of_mem
        intro g g' hg hg' hne i hi hi'
        rw [h.members g hg] at hi
        rw [h.members g' hg'] at hi'
        have hlabel := of_decide_eq_true (List.mem_filter.mp hi).2
        have hlabel' := of_decide_eq_true (List.mem_filter.mp hi').2
        exact hne (hlabel.symm.trans hlabel')
  inhabited := by
    intro g' hg'
    obtain ⟨g, hg, rfl⟩ := List.mem_map.mp hg'
    exact h.inhabited g hg
  ascending := by
    intro g' hg'
    obtain ⟨g, hg, rfl⟩ := List.mem_map.mp hg'
    rw [h.members g hg]
    exact List.pairwise_lt_range.filter _
  ordered := by
    rw [List.pairwise_map]
    exact h.ordered.imp fun hlt i hi j hj => hlt i hi j (List.mem_of_mem_head? hj)
  linked_iff := by
    intro g' hg' i hi j hj
    obtain ⟨g, hg, rfl⟩ := List.mem_map.mp hg'
    have hilt := h.lt_count hg hi
    rw [h.members g hg] at hi ⊢
    have hlabel := of_decide_eq_true (List.mem_filter.mp hi).2
    rw [List.mem_filter, List.mem_range, decide_eq_true_eq, ← hlabel,
      ← root_classes_eq_iff hilt hj]
    exact ⟨fun hmem => hmem.2.symm, fun heq => ⟨hj, heq.symm⟩⟩

theorem isGrouping_groupPositions (sets : List IdentifierSet) :
    IsGrouping sets (groupPositions sets) := by
  obtain ⟨filed, hfiled, heq⟩ := filed_groups sets
  rw [heq]
  exact isGrouping_of_filed hfiled

namespace IsGrouping

variable {sets : List IdentifierSet} {groups : List (List Nat)}

theorem lt_length (h : IsGrouping sets groups) {g : List Nat} (hg : g ∈ groups) {i : Nat}
    (hi : i ∈ g) : i < sets.length :=
  List.mem_range.mp (h.covers.mem_iff.mp (List.mem_flatten.mpr ⟨g, hg, hi⟩))

theorem disjoint (h : IsGrouping sets groups) : groups.Pairwise List.Disjoint :=
  (List.nodup_flatten.mp (h.covers.nodup_iff.mpr List.nodup_range)).2

/-- Where nothing is linked every position is a group of its own. -/
theorem eq_singletons (h : IsGrouping sets groups)
    (halone : ∀ i < sets.length, ∀ j < sets.length, Linked sets i j → i = j) :
    groups = (List.range sets.length).map ([·]) := by
  have hsingle : ∀ g ∈ groups, ∃ i, g = [i] := by
    intro g hg
    obtain ⟨i, rest, rfl⟩ := List.exists_cons_of_ne_nil (h.inhabited g hg)
    refine ⟨i, ?_⟩
    rw [List.cons.injEq]
    refine ⟨rfl, List.eq_nil_iff_forall_not_mem.mpr fun j hj => ?_⟩
    have hi := h.lt_length hg List.mem_cons_self
    have hj' := h.lt_length hg (List.mem_cons_of_mem i hj)
    have hlinked := (h.linked_iff _ hg i List.mem_cons_self j hj').mp (List.mem_cons_of_mem i hj)
    have hlt := (List.pairwise_cons.mp (h.ascending _ hg)).1 j hj
    exact absurd (halone i hi j hj' hlinked) (Nat.ne_of_lt hlt)
  have hflat : groups = groups.flatten.map ([·]) := by
    clear h halone
    induction groups with
    | nil => rfl
    | cons g rest ih =>
      obtain ⟨i, rfl⟩ := hsingle g List.mem_cons_self
      rw [List.flatten_cons, List.map_append,
        ← ih fun g hg => hsingle g (List.mem_cons_of_mem _ hg)]
      rfl
  have hordered := h.ordered
  rw [hflat, List.pairwise_map] at hordered
  have hsorted : groups.flatten.Pairwise (· < ·) :=
    hordered.imp fun hlt => hlt _ rfl _ rfl
  have hrange : groups.flatten = List.range sets.length :=
    h.covers.eq_of_pairwise (fun _ _ _ _ hab hba => absurd hab (Nat.lt_asymm hba)) hsorted
      List.pairwise_lt_range
  rw [hflat, hrange]

end IsGrouping

/-! ### Merging groups -/

/-- What the set at position `i` has under a key. -/
def entryAt (sets : List IdentifierSet) (i : Nat) (k : Identifier.Key) : Option Identifier :=
  sets[i]?.bind fun s => s.get? k

theorem holdsAt_iff {sets : List IdentifierSet} {i : Nat} {id : Identifier} :
    HoldsAt sets i id ↔ entryAt sets i id.key = some id := by
  unfold HoldsAt entryAt get?
  rw [Option.bind_eq_some_iff]
  simp [Ascending.lookup?_eq_some_iff]

theorem lookup?_foldl_merge (s : IdentifierSet) (rest : List IdentifierSet) (k : Identifier.Key) :
    (rest.foldl merge s).lookup? k = (rest.reverse.findSome? (·.lookup? k)).or (s.lookup? k) := by
  induction rest generalizing s with
  | nil => rfl
  | cons t rest ih =>
    rw [List.foldl_cons, ih, lookup?_merge, List.reverse_cons, List.findSome?_append,
      List.findSome?_singleton, Option.or_assoc]

theorem get?_mergeGroup (sets : List IdentifierSet) (g : List Nat) (k : Identifier.Key) :
    (mergeGroup sets g).get? k = g.reverse.findSome? fun i => entryAt sets i k := by
  unfold mergeGroup get?
  rw [lookup?_foldl_merge, Ascending.lookup?_empty, Option.or_none, ← List.filterMap_reverse,
    ← List.head?_filterMap, List.filterMap_filterMap, List.head?_filterMap]
  rfl

/-- A group has under a key what its last member with this key has. -/
theorem get?_mergeGroup_eq_some_iff {sets : List IdentifierSet} {g : List Nat}
    (hg : g.Pairwise (· < ·)) {k : Identifier.Key} {id : Identifier} :
    (mergeGroup sets g).get? k = some id ↔
      ∃ i ∈ g, entryAt sets i k = some id ∧ ∀ j ∈ g, i < j → entryAt sets j k = none := by
  rw [get?_mergeGroup, List.findSome?_eq_some_iff]
  constructor
  · rintro ⟨later, i, earlier, hsplit, hi, hlater⟩
    have hsplit' : g = earlier.reverse ++ i :: later.reverse := by
      rw [← List.reverse_reverse g, hsplit]
      simp
    refine ⟨i, by simp [hsplit'], hi, fun j hj hij => ?_⟩
    rw [hsplit', List.mem_append, List.mem_cons] at hj
    rw [hsplit', List.pairwise_append] at hg
    rcases hj with hj | rfl | hj
    · exact absurd hij (Nat.lt_asymm (hg.2.2 j hj i List.mem_cons_self))
    · exact absurd hij (Nat.lt_irrefl j)
    · exact hlater j (List.mem_reverse.mp hj)
  · rintro ⟨i, hi, hid, hlast⟩
    obtain ⟨earlier, later, rfl⟩ := List.append_of_mem hi
    refine ⟨later.reverse, i, earlier.reverse, by simp, hid, fun j hj => ?_⟩
    have hj' := List.mem_reverse.mp hj
    have hlt := (List.pairwise_cons.mp (List.pairwise_append.mp hg).2.1).1 j hj'
    exact hlast j (by simp [hj']) hlt

theorem mem_mergeGroup {sets : List IdentifierSet} {g : List Nat} {id : Identifier}
    (h : id ∈ (mergeGroup sets g).toList) : ∃ i ∈ g, HoldsAt sets i id := by
  have hget : (mergeGroup sets g).get? id.key = some id :=
    Ascending.lookup?_eq_some_iff.mpr ⟨h, rfl⟩
  rw [get?_mergeGroup] at hget
  obtain ⟨i, hi, hid⟩ := List.exists_of_findSome?_eq_some hget
  exact ⟨i, List.mem_reverse.mp hi, holdsAt_iff.mpr hid⟩

theorem IsGrouping.merges_disjoint {sets : List IdentifierSet} {groups : List (List Nat)}
    (h : IsGrouping sets groups) :
    (groups.map (mergeGroup sets)).Pairwise fun s t => ∀ id ∈ s.toList, id ∉ t.toList := by
  rw [List.pairwise_map]
  apply h.disjoint.imp_of_mem
  intro g g' hg hg' hdisjoint id hid hid'
  obtain ⟨i, hi, hholds⟩ := mem_mergeGroup hid
  obtain ⟨j, hj, hholds'⟩ := mem_mergeGroup hid'
  have hlinked := linked_of_holdsAt hholds hholds'
  exact hdisjoint ((h.linked_iff g hg i hi j hholds'.lt).mpr hlinked) hj

/-- Sets of which no two share an identifier are linked to nothing but themselves. -/
theorem eq_of_linked {sets : List IdentifierSet}
    (h : sets.Pairwise fun s t => ∀ id ∈ s.toList, id ∉ t.toList) {i j : Nat}
    (hlinked : Linked sets i j) : i = j := by
  induction hlinked with
  | refl => rfl
  | @tail j k _ hshare ih =>
    obtain ⟨id, ⟨s, hs, hid⟩, ⟨t, ht, hid'⟩⟩ := hshare
    obtain ⟨hj, rfl⟩ := List.getElem?_eq_some_iff.mp hs
    obtain ⟨hk, rfl⟩ := List.getElem?_eq_some_iff.mp ht
    rw [List.pairwise_iff_getElem] at h
    rcases Nat.lt_trichotomy j k with hlt | heq | hlt
    · exact absurd hid' (h j k hj hk hlt id hid)
    · exact ih.trans heq
    · exact absurd hid (h k j hk hj hlt id hid')

theorem mergeGroup_singleton {sets : List IdentifierSet} {i : Nat} (hi : i < sets.length) :
    mergeGroup sets [i] = sets[i] := by
  simp [mergeGroup, hi]

theorem mergeLinked_of_disjoint {sets : List IdentifierSet}
    (h : sets.Pairwise fun s t => ∀ id ∈ s.toList, id ∉ t.toList) : mergeLinked sets = sets := by
  have hgroups := (isGrouping_groupPositions sets).eq_singletons fun i _ j _ => eq_of_linked h
  unfold mergeLinked
  rw [hgroups, List.map_map]
  apply List.ext_getElem (by simp)
  intro i hi hi'
  simp [mergeGroup_singleton hi']

/-- The groups are the components of the sets under sharing. One set is merged for each of them, with
the last value of every key; no two of these share an identifier, so merging them again changes
nothing. -/
theorem mergeLinked_merges_components (sets : List IdentifierSet) :
    IsGrouping sets (groupPositions sets) ∧
      List.Forall₂ (fun g s => ∀ k id, s.get? k = some id ↔
        ∃ i ∈ g, entryAt sets i k = some id ∧ ∀ j ∈ g, i < j → entryAt sets j k = none)
        (groupPositions sets) (mergeLinked sets) ∧
      (mergeLinked sets).Pairwise (fun s t => ∀ id, ¬(s.holds id ∧ t.holds id)) ∧
      mergeLinked (mergeLinked sets) = mergeLinked sets := by
  have hgroups := isGrouping_groupPositions sets
  have hdisjoint := hgroups.merges_disjoint
  refine ⟨hgroups, ?_, ?_, mergeLinked_of_disjoint hdisjoint⟩
  · unfold mergeLinked
    rw [List.forall₂_map_right_iff, List.forall₂_same]
    intro g hg k id
    exact get?_mergeGroup_eq_some_iff (hgroups.ascending g hg)
  · apply hdisjoint.imp
    intro s t hst id hboth
    exact hst id (holds_iff.mp hboth.1) (holds_iff.mp hboth.2)

end Herald.IdentifierSet
