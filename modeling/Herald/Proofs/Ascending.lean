import Herald.Ascending
import Mathlib.Data.List.Pairwise

/-!
Ascending lists as finite maps: what a look-up finds after an insertion, and that the look-ups
determine the list.
-/

namespace Herald.Ascending

variable {α κ : Type} [Ord κ] {key : α → κ}

theorem mem_of_lookup? {m : Ascending α key} {k : κ} {a : α} (h : m.lookup? k = some a) :
    a ∈ m.toList :=
  List.mem_of_find?_eq_some h

@[simp] theorem lookup?_empty (k : κ) : (∅ : Ascending α key).lookup? k = none := rfl

variable [Std.LawfulEqOrd κ]

theorem key_of_lookup? {m : Ascending α key} {k : κ} {a : α} (h : m.lookup? k = some a) :
    key a = k := by
  have hcompare := List.find?_some h
  exact Std.LawfulEqCmp.eq_of_compare (beq_iff_eq.mp hcompare)

theorem keys_ne_of_lt {a b : α} (h : compare (key a) (key b) = .lt) : key a ≠ key b := by
  intro heq
  have hself : compare (key a) (key b) = .eq := Std.LawfulEqOrd.compare_eq_iff_eq.mpr heq
  rw [hself] at h
  cases h

/-- No two entries share a key. -/
theorem eq_of_key_eq {m : Ascending α key} {a b : α} (ha : a ∈ m.toList) (hb : b ∈ m.toList)
    (h : key a = key b) : a = b := by
  have : Std.Symm fun a b : α => key a ≠ key b := ⟨fun _ _ h => h.symm⟩
  have hne : m.toList.Pairwise fun a b => key a ≠ key b := m.ascending.imp keys_ne_of_lt
  by_contra hab
  exact hne.forall ha hb hab h

theorem lookup?_eq_some_iff {m : Ascending α key} {k : κ} {a : α} :
    m.lookup? k = some a ↔ a ∈ m.toList ∧ key a = k := by
  refine ⟨fun h => ⟨mem_of_lookup? h, key_of_lookup? h⟩, ?_⟩
  rintro ⟨ha, rfl⟩
  have hsome : (m.lookup? (key a)).isSome := by
    refine List.find?_isSome.mpr ⟨a, ha, ?_⟩
    exact beq_iff_eq.mpr (Std.LawfulEqOrd.compare_eq_iff_eq.mpr rfl)
  obtain ⟨b, hb⟩ := Option.isSome_iff_exists.mp hsome
  rw [hb, eq_of_key_eq (mem_of_lookup? hb) ha (key_of_lookup? hb)]

theorem isSome_lookup?_iff {m : Ascending α key} {k : κ} :
    (m.lookup? k).isSome ↔ ∃ a ∈ m.toList, key a = k := by
  rw [Option.isSome_iff_exists]
  exact exists_congr fun a => lookup?_eq_some_iff

theorem lookup?_eq_none_iff {m : Ascending α key} {k : κ} :
    m.lookup? k = none ↔ ∀ a ∈ m.toList, key a ≠ k := by
  constructor
  · intro h a ha hk
    rw [lookup?_eq_some_iff.mpr ⟨ha, hk⟩] at h
    cases h
  · intro h
    by_contra hsome
    obtain ⟨a, ha⟩ := Option.ne_none_iff_exists'.mp hsome
    exact h a (mem_of_lookup? ha) (key_of_lookup? ha)

variable [Std.TransOrd κ]

theorem mem_insertInto {a x : α} {entries : List α}
    (h : entries.Pairwise fun a b => compare (key a) (key b) = .lt) :
    x ∈ insertInto key a entries ↔ x = a ∨ x ∈ entries ∧ key x ≠ key a := by
  induction entries with
  | nil => simp [insertInto]
  | cons b rest ih =>
    obtain ⟨below, hrest⟩ := List.pairwise_cons.mp h
    unfold insertInto
    split
    · rename_i lt
      have above : ∀ y ∈ b :: rest, key y ≠ key a := by
        intro y hy
        refine (keys_ne_of_lt ?_).symm
        rcases List.mem_cons.mp hy with rfl | hy
        · exact lt
        · exact Std.TransCmp.lt_trans lt (below y hy)
      grind
    · rename_i eq
      have hkey : key a = key b := Std.LawfulEqCmp.eq_of_compare eq
      have others : ∀ y ∈ rest, key y ≠ key a := fun y hy =>
        hkey ▸ (keys_ne_of_lt (below y hy)).symm
      grind
    · rename_i gt
      have hb : key b ≠ key a := keys_ne_of_lt (Std.OrientedCmp.gt_iff_lt.mp gt)
      rw [List.mem_cons, ih hrest, List.mem_cons]
      grind

theorem mem_insert {m : Ascending α key} {a x : α} :
    x ∈ (m.insert a).toList ↔ x = a ∨ x ∈ m.toList ∧ key x ≠ key a :=
  mem_insertInto m.ascending

@[simp] theorem isEmpty_insert (m : Ascending α key) (a : α) : (m.insert a).isEmpty = false := by
  have hmem : a ∈ (m.insert a).toList := mem_insert.mpr (.inl rfl)
  rw [Bool.eq_false_iff]
  intro hempty
  rw [List.isEmpty_iff.mp hempty] at hmem
  cases hmem

@[simp] theorem lookup?_insert (m : Ascending α key) (a : α) (k : κ) [Decidable (key a = k)] :
    (m.insert a).lookup? k = if key a = k then some a else m.lookup? k := by
  apply Option.ext
  intro x
  rw [lookup?_eq_some_iff, mem_insert]
  split
  · grind
  · rw [lookup?_eq_some_iff]
    grind

omit [Std.TransOrd κ] in
theorem nodup_toList (m : Ascending α key) : m.toList.Nodup := by
  apply m.ascending.imp
  intro a b hlt heq
  exact keys_ne_of_lt hlt (congrArg key heq)

/-- The entries before one are those with lower keys. -/
theorem lt_iff_mem_before {m : Ascending α key} {before after : List α} {a b : α}
    (h : m.toList = before ++ a :: after) (hb : b ∈ m.toList) :
    compare (key b) (key a) = .lt ↔ b ∈ before := by
  have hascending := m.ascending
  rw [h, List.pairwise_append, List.pairwise_cons] at hascending
  obtain ⟨-, ⟨hafter, -⟩, hbefore⟩ := hascending
  refine ⟨fun hlt => ?_, fun hmem => hbefore b hmem a List.mem_cons_self⟩
  rw [h, List.mem_append, List.mem_cons] at hb
  rcases hb with hmem | rfl | hmem
  · exact hmem
  · exact absurd rfl (keys_ne_of_lt hlt)
  · exact absurd (hafter b hmem) (Std.OrientedCmp.not_lt_of_lt hlt)

/-- Two maps with the same entries are the same list. -/
theorem ext_of_mem {m n : Ascending α key} (h : ∀ a, a ∈ m.toList ↔ a ∈ n.toList) : m = n := by
  refine Ascending.ext (List.Perm.eq_of_pairwise ?_ m.ascending n.ascending
    ((List.perm_ext_iff_of_nodup (nodup_toList m) (nodup_toList n)).mpr h))
  intro a b _ _ hab hba
  exact absurd hba (Std.OrientedCmp.not_lt_of_lt hab)

theorem ext_of_lookup? {m n : Ascending α key} (h : ∀ k, m.lookup? k = n.lookup? k) : m = n := by
  apply ext_of_mem
  intro a
  have := h (key a)
  constructor
  · intro ha
    rw [lookup?_eq_some_iff.mpr ⟨ha, rfl⟩] at this
    exact mem_of_lookup? this.symm
  · intro ha
    rw [lookup?_eq_some_iff.mpr ⟨ha, rfl⟩] at this
    exact mem_of_lookup? this

/-- Of several entries with the same key the last one added counts, and all of them count before those
of the map they are added to. -/
theorem lookup?_insertAll [DecidableEq κ] (m : Ascending α key) (entries : List α) (k : κ) :
    (m.insertAll entries).lookup? k =
      (entries.reverse.find? fun a => key a = k).or (m.lookup? k) := by
  unfold insertAll
  induction entries generalizing m with
  | nil => rfl
  | cons a rest ih =>
    rw [List.foldl_cons, ih, lookup?_insert, List.reverse_cons, List.find?_append]
    cases rest.reverse.find? fun a => key a = k with
    | some b => rfl
    | none => by_cases hk : key a = k <;> simp [hk]

/-- A list of keys has the same members when it is put in order. -/
@[simp] theorem mem_ofList_id [DecidableEq κ] {keys : List κ} {k : κ} :
    k ∈ (ofList keys : Ascending κ id).toList ↔ k ∈ keys := by
  have hsome : ((ofList keys : Ascending κ id).lookup? k).isSome ↔ k ∈ keys := by
    rw [ofList, lookup?_insertAll, lookup?_empty, Option.or_none, List.find?_isSome]
    simp
  rw [← hsome, isSome_lookup?_iff]
  simp

omit [Std.TransOrd κ] in
/-- A list of the same entries in another order is searched as the map is. -/
theorem find?_eq_lookup? [DecidableEq κ] (m : Ascending α key) {entries : List α}
    (h : ∀ a, a ∈ entries ↔ a ∈ m.toList) (k : κ) :
    (entries.find? fun a => key a = k) = m.lookup? k := by
  cases hm : m.lookup? k with
  | none =>
    rw [lookup?_eq_none_iff] at hm
    simpa [h] using hm
  | some a =>
    obtain ⟨ha, hk⟩ := lookup?_eq_some_iff.mp hm
    have hsome : (entries.find? fun a => key a = k).isSome :=
      List.find?_isSome.mpr ⟨a, (h a).mpr ha, by simpa using hk⟩
    obtain ⟨b, hb⟩ := Option.isSome_iff_exists.mp hsome
    have hbmem : b ∈ m.toList := (h b).mp (List.mem_of_find?_eq_some hb)
    have hbkey : key b = k := by simpa using List.find?_some hb
    rw [hb, eq_of_key_eq hbmem ha (hbkey.trans hk.symm)]

omit [Std.TransOrd κ] in
theorem find?_reverse_toList [DecidableEq κ] (m : Ascending α key) (k : κ) :
    (m.toList.reverse.find? fun a => key a = k) = m.lookup? k :=
  m.find?_eq_lookup? (fun _ => List.mem_reverse) k

theorem lookup?_insertAll_toList [DecidableEq κ] (m n : Ascending α key) (k : κ) :
    (m.insertAll n.toList).lookup? k = (n.lookup? k).or (m.lookup? k) := by
  rw [lookup?_insertAll, find?_reverse_toList]

/-- The entries of a map give back the map, in whatever order they are listed. -/
theorem ofList_eq_of_mem [DecidableEq κ] {m : Ascending α key} {entries : List α}
    (h : ∀ a, a ∈ entries ↔ a ∈ m.toList) : ofList entries = m := by
  apply ext_of_lookup?
  intro k
  rw [ofList, lookup?_insertAll, lookup?_empty, Option.or_none]
  exact m.find?_eq_lookup? (fun a => List.mem_reverse.trans (h a)) k

/-- The list of a map gives back the map. -/
@[simp] theorem ofList_toList [DecidableEq κ] (m : Ascending α key) : ofList m.toList = m :=
  ofList_eq_of_mem fun _ => Iff.rfl

end Herald.Ascending

namespace Herald.Dictionary

variable {α : Type}

@[simp] theorem get?_empty (k : String) : (∅ : Dictionary α).get? k = none := rfl

theorem mem_values_of_get? {m : Dictionary α} {k : String} {a : α} (h : m.get? k = some a) :
    a ∈ m.values := by
  obtain ⟨entry, hentry, rfl⟩ := Option.map_eq_some_iff.mp h
  exact List.mem_map_of_mem (List.mem_of_find?_eq_some hentry)

@[simp] theorem get?_set (m : Dictionary α) (k : String) (a : α) (k' : String) :
    (m.set k a).get? k' = if k = k' then some a else m.get? k' := by
  rw [get?, set, Ascending.lookup?_insert]
  split
  · rfl
  · rfl

theorem lookup?_eq (m : Dictionary α) (k : String) : m.lookup? k = (m.get? k).map (k, ·) := by
  rw [get?, Option.map_map]
  cases hlookup : m.lookup? k with
  | none => rfl
  | some entry =>
    obtain rfl := Ascending.key_of_lookup? hlookup
    rfl

/-- Two dictionaries in which every key finds the same are the same. -/
theorem ext_of_get? {m n : Dictionary α} (h : ∀ k, m.get? k = n.get? k) : m = n :=
  Ascending.ext_of_lookup? fun k => by rw [lookup?_eq, lookup?_eq, h k]

/-- Something is found in a dictionary that is not empty. -/
theorem exists_get?_eq_some {m : Dictionary α} (h : m.isEmpty = false) :
    ∃ k a, m.get? k = some a := by
  obtain ⟨⟨k, a⟩, hmem⟩ := List.exists_mem_of_ne_nil m.toList (List.isEmpty_eq_false_iff.mp h)
  have hlookup : m.lookup? k = some (k, a) := Ascending.lookup?_eq_some_iff.mpr ⟨hmem, rfl⟩
  exact ⟨k, a, by rw [get?, hlookup, Option.map_some]⟩

theorem hasKey_iff {m : Dictionary α} {k : String} :
    m.hasKey k ↔ k ∈ m.keys := by
  rw [Ascending.hasKey, Ascending.isSome_lookup?_iff]
  exact List.mem_map.symm

@[simp] theorem mem_keys_set {m : Dictionary α} {k k' : String} {a : α} :
    k' ∈ (m.set k a).keys ↔ k' = k ∨ k' ∈ m.keys := by
  rw [← hasKey_iff, ← hasKey_iff, Ascending.hasKey, set, Ascending.lookup?_insert]
  by_cases hk : k = k'
  · simp [hk]
  · simp [hk, Ne.symm hk, Ascending.hasKey]

/-- An entry with a new key is added to the others. -/
theorem set_perm {m : Dictionary α} {k : String} (a : α) (h : k ∉ m.keys) :
    (m.set k a).toList.Perm ((k, a) :: m.toList) := by
  have hne : ∀ entry ∈ m.toList, entry.1 ≠ k := fun entry hentry heq =>
    h (heq ▸ List.mem_map_of_mem hentry)
  refine (List.perm_ext_iff_of_nodup (Ascending.nodup_toList _) ?_).mpr fun entry => ?_
  · exact List.nodup_cons.mpr ⟨fun hmem => hne _ hmem rfl, Ascending.nodup_toList m⟩
  · rw [set, Ascending.mem_insert, List.mem_cons]
    exact or_congr_right (and_iff_left_of_imp (hne entry))

theorem nodup_keys (m : Dictionary α) : m.keys.Nodup :=
  List.pairwise_map.mpr (m.ascending.imp Ascending.keys_ne_of_lt)

theorem map_find?_eq_lookup (entries : List (String × α)) (k : String) :
    (entries.find? fun entry => entry.1 = k).map Prod.snd = entries.lookup k := by
  induction entries with
  | nil => rfl
  | cons entry rest ih =>
    rw [List.find?_cons, List.lookup_cons, ← ih]
    by_cases hk : entry.1 = k
    · simp [hk]
    · simp [hk, beq_false_of_ne (Ne.symm hk)]

/-- Of several entries with the same key the last one counts. -/
theorem get?_ofList (entries : List (String × α)) (k : String) :
    get? (Ascending.ofList entries) k = entries.reverse.lookup k := by
  rw [get?, Ascending.ofList, Ascending.lookup?_insertAll, Ascending.lookup?_empty, Option.or_none,
    map_find?_eq_lookup]

@[simp] theorem lookup_toList (m : Dictionary α) (k : String) : m.toList.lookup k = m.get? k := by
  rw [← map_find?_eq_lookup, Ascending.find?_eq_lookup? m (fun _ => Iff.rfl), get?]

end Herald.Dictionary
