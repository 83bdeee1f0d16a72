import Herald.Identifier.Set
import Herald.Proofs.Ascending
import Mathlib.Data.List.Basic

/-!
Keys and sets of identifiers. The written form determines a key, so keys that compare as equal are
equal, and a set is determined by what it holds under each key.
-/

namespace Herald

namespace Identifier.Key

@[simp] theorem toList_text (k : Key) : k.text.toList = k.characters := by
  unfold text characters
  cases k.space <;> simp

theorem characters_injective {k l : Key} (h : k.characters = l.characters) : k = l := by
  obtain ⟨kspace, kkind, hks, hkk⟩ := k
  obtain ⟨lspace, lkind, hls, hlk⟩ := l
  cases kspace with
  | none =>
    cases lspace with
    | none =>
      have hkind : kkind = lkind := String.toList_inj.mp h
      subst hkind
      rfl
    | some s =>
      refine absurd ?_ hkk.2.1
      rw [show kkind.toList = s.toList ++ '/' :: lkind.toList from h]
      simp
  | some s =>
    cases lspace with
    | none =>
      refine absurd ?_ hlk.2.1
      rw [show lkind.toList = s.toList ++ '/' :: kkind.toList from h.symm]
      simp
    | some t =>
      have hs : '/' ∉ s.toList := (hks s rfl).2.1
      obtain ⟨hst, -, hkind⟩ := (List.append_cons_inj_of_notMem hs hkk.2.1).mp h
      obtain rfl := String.toList_inj.mp hst
      obtain rfl := String.toList_inj.mp hkind
      rfl

theorem text_injective {k l : Key} (h : k.text = l.text) : k = l := by
  apply characters_injective
  rw [← toList_text, ← toList_text, h]

theorem compare_eq (k l : Key) : compare k l = compare k.characters l.characters := rfl

instance : Std.LawfulEqOrd Key where
  compare_self := by
    intro k
    rw [compare_eq, Std.LawfulEqOrd.compare_eq_iff_eq]
  eq_of_compare := by
    intro k l h
    rw [compare_eq, Std.LawfulEqOrd.compare_eq_iff_eq] at h
    exact characters_injective h

end Identifier.Key

namespace IdentifierSet

@[simp] theorem lookup?_merge (s t : IdentifierSet) (k : Identifier.Key) :
    (s.merge t).lookup? k = (t.lookup? k).or (s.lookup? k) :=
  Ascending.lookup?_insertAll_toList s t k

/-- Where both sets have a key, the value of what is merged in counts. -/
@[simp] theorem get?_merge (s t : IdentifierSet) (k : Identifier.Key) :
    (s.merge t).get? k = (t.get? k).or (s.get? k) :=
  lookup?_merge s t k

@[simp] theorem empty_merge (s : IdentifierSet) : merge ∅ s = s := by
  apply Ascending.ext_of_lookup?
  intro k
  rw [lookup?_merge, Ascending.lookup?_empty, Option.or_none]

theorem get?_eq_some_iff {s : IdentifierSet} {k : Identifier.Key} {id : Identifier} :
    s.get? k = some id ↔ id ∈ s.toList ∧ id.key = k :=
  Ascending.lookup?_eq_some_iff

/-- What is merged in is there, and of the rest what has another key. -/
@[simp] theorem mem_merge {s t : IdentifierSet} {id : Identifier} :
    id ∈ (s.merge t).toList ↔ id ∈ t.toList ∨ id ∈ s.toList ∧ t.get? id.key = none := by
  have hlookup : ∀ s : IdentifierSet, id ∈ s.toList ↔ s.lookup? id.key = some id := by
    intro s
    rw [Ascending.lookup?_eq_some_iff]
    exact (and_iff_left rfl).symm
  rw [hlookup (s.merge t), lookup?_merge, hlookup t, hlookup s, get?]
  cases t.lookup? id.key <;> simp

/-- What is missing after a merge has given way to an identifier with its key. -/
theorem exists_of_not_mem_merge {s t : IdentifierSet} {id : Identifier} (hs : id ∈ s.toList)
    (hmerge : id ∉ (s.merge t).toList) : ∃ own ∈ t.toList, own.key = id.key := by
  cases hown : t.get? id.key with
  | none => exact absurd (mem_merge.mpr (.inr ⟨hs, hown⟩)) hmerge
  | some own => exact ⟨own, get?_eq_some_iff.mp hown⟩

/-- Merging the same set in once more changes nothing. -/
@[simp] theorem merge_merge_self (s t : IdentifierSet) : (s.merge t).merge t = s.merge t := by
  apply Ascending.ext_of_lookup?
  intro k
  rw [lookup?_merge, lookup?_merge]
  cases t.lookup? k <;> simp

@[simp] theorem holds_iff {s : IdentifierSet} {id : Identifier} : s.holds id ↔ id ∈ s.toList := by
  unfold holds get?
  rw [beq_iff_eq, Ascending.lookup?_eq_some_iff]
  simp

end IdentifierSet

end Herald
