import Herald.Proofs.Identifier.Order
import Mathlib.Data.Set.Card

/-!
The laws of sets of identifiers. A set is the list of what it has under each key, so its look-ups determine
it. Merging is associative, intersecting is commutative besides, and a set merged or intersected with itself
stays as it is.
-/

namespace Herald.IdentifierSet

variable {s t : IdentifierSet} {id : Identifier} {k : Identifier.Key}

/-! ### Look-ups -/

theorem ext_of_get? (h : ∀ k, s.get? k = t.get? k) : s = t :=
  Ascending.ext_of_lookup? h

theorem eq_iff_get? : s = t ↔ ∀ k, s.get? k = t.get? k :=
  ⟨fun h _ => h ▸ rfl, ext_of_get?⟩

/-- Sets are compared list by list. -/
theorem beq_iff : s == t ↔ s = t := by
  change s.toList == t.toList ↔ _
  rw [beq_iff_eq, Ascending.ext_iff]

theorem mem_iff_get? : id ∈ s.toList ↔ s.get? id.key = some id := by
  rw [get?_eq_some_iff]
  exact (and_iff_left rfl).symm

theorem key_of_get? (h : s.get? k = some id) : id.key = k :=
  (get?_eq_some_iff.mp h).2

theorem require_eq_ok_iff : s.require k = .ok id ↔ id ∈ s.toList ∧ id.key = k := by
  rw [← get?_eq_some_iff, require]
  cases s.get? k <;> simp

theorem require_eq_error_iff {e : MissingIdentifier} :
    s.require k = .error e ↔ e = ⟨k, s⟩ ∧ ∀ id ∈ s.toList, id.key ≠ k := by
  rw [← Ascending.lookup?_eq_none_iff, require, get?]
  cases s.lookup? k <;> simp [eq_comm]

theorem holdsKind_iff {kind : String} : s.holdsKind kind ↔ ∃ id ∈ s.toList, id.key.kind = kind := by
  simp [holdsKind]

theorem nodup_keys (s : IdentifierSet) : (s.toList.map Identifier.key).Nodup :=
  List.pairwise_map.mpr (s.ascending.imp Ascending.keys_ne_of_lt)

/-- There are as many identifiers as keys under which something is found. -/
theorem ncard_keys (s : IdentifierSet) : {k | (s.get? k).isSome}.ncard = s.size := by
  have hkeys : {k | (s.get? k).isSome} = ((s.toList.map Identifier.key).toFinset : Set _) := by
    ext k
    rw [Set.mem_ofPred_eq, get?, Ascending.isSome_lookup?_iff]
    simp
  rw [hkeys, Set.ncard_coe_finset, List.toFinset_card_of_nodup s.nodup_keys, List.length_map]
  rfl

/-! ### Merging -/

theorem merge_assoc (s t u : IdentifierSet) : (s.merge t).merge u = s.merge (t.merge u) := by
  apply ext_of_get?
  intro k
  rw [get?_merge, get?_merge, get?_merge, get?_merge, Option.or_assoc]

@[simp] theorem merge_self (s : IdentifierSet) : s.merge s = s := by
  apply ext_of_get?
  intro k
  rw [get?_merge, Option.or_self]

/-! ### Intersecting -/

@[simp] theorem mem_intersect : id ∈ (s.intersect t).toList ↔ id ∈ s.toList ∧ id ∈ t.toList := by
  rw [intersect, Ascending.filter, List.mem_filter, holds_iff]

/-- Under a key both sets have to hold the same. -/
@[simp] theorem get?_intersect (s t : IdentifierSet) (k : Identifier.Key) :
    (s.intersect t).get? k = if s.get? k = t.get? k then s.get? k else none := by
  apply Option.ext
  intro id
  rw [get?_eq_some_iff, mem_intersect, and_and_right, ← get?_eq_some_iff, ← get?_eq_some_iff]
  split
  · rename_i hsame
    rw [← hsame, and_self]
  · rename_i hdifferent
    refine iff_of_false ?_ nofun
    rintro ⟨hs, ht⟩
    exact hdifferent (hs.trans ht.symm)

theorem intersect_comm (s t : IdentifierSet) : s.intersect t = t.intersect s := by
  apply Ascending.ext_of_mem
  intro id
  rw [mem_intersect, mem_intersect, and_comm]

theorem intersect_assoc (s t u : IdentifierSet) :
    (s.intersect t).intersect u = s.intersect (t.intersect u) := by
  apply Ascending.ext_of_mem
  intro id
  rw [mem_intersect, mem_intersect, mem_intersect, mem_intersect, and_assoc]

@[simp] theorem intersect_self (s : IdentifierSet) : s.intersect s = s := by
  apply Ascending.ext_of_mem
  intro id
  rw [mem_intersect, and_self]

/-! ### The laws -/

/-- The list of a set is in strict key order, which is the order of the written keys, and is the only such
list of what the set holds. Everything in it could be built anew, and collecting it gives back the set. -/
structure Canonical (s : IdentifierSet) : Prop where
  ascending : s.toList.Pairwise fun a b => compare a.key b.key = .lt
  written : s.toList.Pairwise fun a b => a.key.text < b.key.text
  distinct : (s.toList.map Identifier.key).Nodup
  made : ∀ id ∈ s.toList, id.value ≠ "" ∧
    Identifier.make id.key.space id.key.kind id.value = .ok id
  collected : Ascending.ofList s.toList = s
  unique : ∀ ids : List Identifier, (ids.Pairwise fun a b => compare a.key b.key = .lt) →
    (∀ id, id ∈ ids ↔ s.get? id.key = some id) → ids = s.toList

theorem canonical (s : IdentifierSet) : s.Canonical where
  ascending := s.ascending
  written := s.ascending.imp Identifier.Key.compare_eq_lt_iff_text_lt.mp
  distinct := s.nodup_keys
  made id _ := ⟨id.value_ne_empty, Identifier.make_eq_ok_iff.mpr ⟨rfl, rfl, rfl⟩⟩
  collected := Ascending.ofList_toList s
  unique ids hascending hmem := by
    have hset : (⟨ids, hascending⟩ : IdentifierSet) = s :=
      Ascending.ext_of_mem fun id => (hmem id).trans mem_iff_get?.symm
    exact congrArg Ascending.toList hset

/-- What sets answer agrees with their lists, and equal sets are those that answer alike. -/
structure AnswersByList : Prop where
  eq_iff : ∀ s t : IdentifierSet, s = t ↔ ∀ k, s.get? k = t.get? k
  beq_iff : ∀ s t : IdentifierSet, s == t ↔ ∀ k, s.get? k = t.get? k
  get : ∀ (s : IdentifierSet) k id, s.get? k = some id ↔ id ∈ s.toList ∧ id.key = k
  holds : ∀ (s : IdentifierSet) id, s.holds id ↔ id ∈ s.toList
  holdsKind : ∀ (s : IdentifierSet) kind, s.holdsKind kind ↔ ∃ id ∈ s.toList, id.key.kind = kind
  size : ∀ s : IdentifierSet, s.size = s.toList.length
  keys : ∀ s : IdentifierSet, {k | (s.get? k).isSome}.ncard = s.size
  require_ok : ∀ (s : IdentifierSet) k id, s.require k = .ok id ↔ id ∈ s.toList ∧ id.key = k
  require_error : ∀ (s : IdentifierSet) k e, s.require k = .error e ↔
    e = ⟨k, s⟩ ∧ ∀ id ∈ s.toList, id.key ≠ k

theorem answersByList : AnswersByList where
  eq_iff _ _ := eq_iff_get?
  beq_iff _ _ := by rw [beq_iff, eq_iff_get?]
  get _ _ _ := get?_eq_some_iff
  holds _ _ := holds_iff
  holdsKind _ _ := holdsKind_iff
  size _ := rfl
  keys := ncard_keys
  require_ok _ _ _ := require_eq_ok_iff
  require_error _ _ _ := require_eq_error_iff

/-- How merging and intersecting combine sets. -/
structure CombinesLawfully : Prop where
  get_merge : ∀ (s t : IdentifierSet) k, (s.merge t).get? k = (t.get? k).or (s.get? k)
  merge_assoc : ∀ s t u : IdentifierSet, (s.merge t).merge u = s.merge (t.merge u)
  merge_again : ∀ s t : IdentifierSet, (s.merge t).merge t = s.merge t
  merge_self : ∀ s : IdentifierSet, s.merge s = s
  mem_intersect : ∀ (s t : IdentifierSet) id,
    id ∈ (s.intersect t).toList ↔ id ∈ s.toList ∧ id ∈ t.toList
  intersect_comm : ∀ s t : IdentifierSet, s.intersect t = t.intersect s
  intersect_assoc : ∀ s t u : IdentifierSet, (s.intersect t).intersect u = s.intersect (t.intersect u)
  intersect_self : ∀ s : IdentifierSet, s.intersect s = s

theorem combinesLawfully : CombinesLawfully where
  get_merge := get?_merge
  merge_assoc := merge_assoc
  merge_again := merge_merge_self
  merge_self := merge_self
  mem_intersect _ _ _ := mem_intersect
  intersect_comm := intersect_comm
  intersect_assoc := intersect_assoc
  intersect_self := intersect_self

end Herald.IdentifierSet
