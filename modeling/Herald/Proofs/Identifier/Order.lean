import Herald.Proofs.Identifier.Notation
import Herald.Proofs.Text.Order

/-!
The order of keys. Keys compare as their written forms, by code points and by bytes alike. It is a total
order in which no two keys are alike, so a map never takes one key for another.
-/

namespace Herald.Identifier.Key

/-! ### Written forms -/

theorem compare_eq_toList_text (k l : Key) : compare k l = compare k.text.toList l.text.toList := by
  rw [compare_eq, toList_text, toList_text]

theorem compare_eq_text (k l : Key) : compare k l = compare k.text l.text := by
  rw [compare_eq_toList_text, Text.compare_toList]

theorem compare_eq_codePoints (k l : Key) :
    compare k l = compare (k.text.toList.map Char.toNat) (l.text.toList.map Char.toNat) := by
  rw [compare_eq_toList_text, Text.compare_codePoints]

theorem compare_eq_bytes (k l : Key) :
    compare k l = compare (Text.Utf8.encode k.text) (Text.Utf8.encode l.text) := by
  rw [compare_eq_toList_text, Text.Utf8.compare_encode]

theorem compare_eq_lt_iff_text_lt {k l : Key} : compare k l = .lt ↔ k.text < l.text := by
  rw [compare_eq_toList_text, Text.compare_list_eq_lt_iff]
  rfl

/-! ### Entries -/

/-- Entries with different keys stay beside each other, whichever comes first. -/
theorem lookup?_insert_insert {α : Type} {k l : Key} (h : k ≠ l)
    (m : Ascending (Key × α) Prod.fst) (a b : α) :
    ((m.insert (k, a)).insert (l, b)).lookup? k = some (k, a) ∧
      ((m.insert (k, a)).insert (l, b)).lookup? l = some (l, b) := by
  rw [Ascending.lookup?_insert, Ascending.lookup?_insert, Ascending.lookup?_insert, if_neg h.symm,
    if_pos rfl, if_pos rfl]
  exact ⟨rfl, rfl⟩

/-- A key without namespace is none with a namespace, whatever kinds they have. -/
theorem compare_ne_eq_of_space {k l : Key} (hk : k.space = none) (hl : l.space.isSome) :
    compare k l ≠ .eq := by
  intro heq
  rw [Std.LawfulEqOrd.eq_of_compare heq] at hk
  rw [hk] at hl
  cases hl

/-! ### The order -/

/-- Keys compare as they are written. -/
structure ComparesAsWritten (k l : Key) : Prop where
  text : compare k l = compare k.text l.text
  codePoints : compare k l =
    compare (k.text.toList.map Char.toNat) (l.text.toList.map Char.toNat)
  bytes : compare k l = compare (Text.Utf8.encode k.text) (Text.Utf8.encode l.text)

theorem comparesAsWritten (k l : Key) : ComparesAsWritten k l :=
  ⟨compare_eq_text k l, compare_eq_codePoints k l, compare_eq_bytes k l⟩

/-- Keys are in a total order, and only a key itself is on a level with it. -/
structure TotallyOrdered : Prop where
  eq_iff : ∀ k l : Key, compare k l = .eq ↔ k = l
  swap : ∀ k l : Key, compare l k = (compare k l).swap
  antisymm : ∀ k l : Key, (compare k l).isLE → (compare l k).isLE → k = l
  trans : ∀ k l m : Key, (compare k l).isLE → (compare l m).isLE → (compare k m).isLE
  lt_trans : ∀ k l m : Key, compare k l = .lt → compare l m = .lt → compare k m = .lt
  total : ∀ k l : Key, (compare k l).isLE ∨ (compare l k).isLE

theorem totallyOrdered : TotallyOrdered where
  eq_iff _ _ := Std.LawfulEqOrd.compare_eq_iff_eq
  swap _ _ := Std.OrientedOrd.eq_swap
  antisymm _ _ h h' := Std.LawfulEqOrd.eq_of_compare (Std.OrientedCmp.isLE_antisymm h h')
  trans _ _ _ h h' := Std.TransCmp.isLE_trans h h'
  lt_trans _ _ _ h h' := Std.TransCmp.lt_trans h h'
  total k l := by
    rw [Std.OrientedOrd.eq_swap (a := l)]
    cases compare k l <;> simp

/-- All keys that can be built are in the order of their written forms, and different ones are kept
apart. -/
theorem order_follows_text :
    (∀ k : Key, make k.space k.kind = .ok k) ∧ (∀ k l : Key, ComparesAsWritten k l) ∧ TotallyOrdered ∧
    (∀ k l : Key, k.space = none → l.space.isSome → compare k l ≠ .eq) ∧
    ∀ (α : Type) (k l : Key), k ≠ l → ∀ (m : Ascending (Key × α) Prod.fst) (a b : α),
      ((m.insert (k, a)).insert (l, b)).lookup? k = some (k, a) ∧
        ((m.insert (k, a)).insert (l, b)).lookup? l = some (l, b) :=
  ⟨fun _ => make_eq_ok_iff.mpr ⟨rfl, rfl⟩, comparesAsWritten, totallyOrdered,
    fun _ _ => compare_ne_eq_of_space, fun _ _ _ => lookup?_insert_insert⟩

/-- By code points the second key is the higher one, by 16-bit units it would be the lower one. -/
theorem order_follows_text_sample :
    let bare : Key := ⟨none, "\uffff", plain_of_mem_none, by decide⟩
    let spaced : Key := ⟨some "😀", "id", by decide, by decide⟩
    let m : Ascending (Key × String) Prod.fst := (Ascending.insert (bare, "a") ∅).insert (spaced, "b")
    compare bare spaced = .lt ∧ compare bare spaced ≠ .eq ∧
      m.lookup? bare = some (bare, "a") ∧ m.lookup? spaced = some (spaced, "b") := by
  intro bare spaced m
  obtain ⟨-, -, -, hspace, hentries⟩ := order_follows_text
  have hne : bare ≠ spaced := by decide
  exact ⟨by decide, hspace bare spaced rfl rfl, hentries String bare spaced hne ∅ "a" "b"⟩

end Herald.Identifier.Key
