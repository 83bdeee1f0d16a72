import Herald.Proofs.Text.Utf8
import Mathlib.Algebra.Group.Nat.Defs

/-!
The order of texts. Texts compare as lists of characters, as lists of code points and as lists of bytes
alike: of two characters the higher one has a higher first byte, or after the same first byte the higher of
two numbers with as many digits.
-/

namespace Herald.Text

/-! ### Lists -/

section Lists

variable {α β : Type} [Ord α] [Ord β]

@[simp] theorem compare_append_left [Std.ReflOrd α] (shared xs ys : List α) :
    compare (shared ++ xs) (shared ++ ys) = compare xs ys := by
  induction shared with
  | nil => rfl
  | cons a rest ih =>
    rw [List.cons_append, List.cons_append, List.compare_cons_cons, Std.ReflOrd.compare_self, ih]
    rfl

/-- What keeps the order of elements keeps the order of lists. -/
theorem compare_map {f : α → β} (hf : ∀ a b, compare (f a) (f b) = compare a b) (xs ys : List α) :
    compare (xs.map f) (ys.map f) = compare xs ys := by
  induction xs generalizing ys with
  | nil => cases ys <;> rfl
  | cons a xs ih =>
    cases ys with
    | nil => rfl
    | cons b ys =>
      rw [List.map_cons, List.map_cons, List.compare_cons_cons, List.compare_cons_cons, hf, ih]

theorem compare_cons_of_lt {a b : α} (h : compare a b = .lt) (xs ys : List α) :
    compare (a :: xs) (b :: ys) = .lt := by
  rw [List.compare_cons_cons, h]
  rfl

end Lists

@[simp] theorem compare_toNat (c d : Char) : compare c.toNat d.toNat = compare c d := by
  change compareOfLessAndEq c.toNat d.toNat = compareOfLessAndEq c d
  unfold compareOfLessAndEq
  simp only [Char.toNat_inj]
  rfl

/-- Characters compare as their code points. -/
@[simp] theorem compare_codePoints (cs ds : List Char) :
    compare (cs.map Char.toNat) (ds.map Char.toNat) = compare cs ds :=
  compare_map compare_toNat cs ds

theorem compare_eq_lt_iff {c d : Char} : compare c d = .lt ↔ c < d := by
  rw [← compare_toNat, Nat.compare_eq_lt]
  rfl

theorem compare_list_eq_lt_iff {cs ds : List Char} : compare cs ds = .lt ↔ cs < ds := by
  induction cs generalizing ds with
  | nil =>
    cases ds with
    | nil => simp
    | cons d ds => simp [List.compare_nil_cons]
  | cons c cs ih =>
    cases ds with
    | nil => simp [List.compare_cons_nil]
    | cons d ds =>
      rw [List.compare_cons_cons, Ordering.then_eq_lt, compare_eq_lt_iff,
        Std.LawfulEqOrd.compare_eq_iff_eq, ih, List.cons_lt_cons_iff]

/-- Texts compare as their characters. -/
@[simp] theorem compare_toList (s t : String) : compare s.toList t.toList = compare s t := by
  have hlt : compare s.toList t.toList = .lt ↔ s < t := compare_list_eq_lt_iff
  have heq : compare s.toList t.toList = .eq ↔ s = t :=
    Std.LawfulEqOrd.compare_eq_iff_eq.trans String.toList_inj
  change _ = compareOfLessAndEq s t
  unfold compareOfLessAndEq
  cases hcompare : compare s.toList t.toList with
  | lt => rw [if_pos (hlt.mp hcompare)]
  | eq => rw [if_neg (mt hlt.mpr (by simp [hcompare])), if_pos (heq.mp hcompare)]
  | gt =>
    rw [if_neg (mt hlt.mpr (by simp [hcompare])), if_neg (mt heq.mpr (by simp [hcompare]))]

theorem compare_text_eq_lt_iff {s t : String} : compare s t = .lt ↔ s < t := by
  rw [← compare_toList, compare_list_eq_lt_iff]
  rfl

namespace Utf8

/-! ### Bytes of characters -/

/-- The last `k` bytes of a character with the code point `n`: its last digits to the base 64. -/
def continuations : (k n : Nat) → List UInt8
  | 0, _ => []
  | k + 1, n => UInt8.ofNat (n / 64 ^ k % 64 + 0x80) :: continuations k n

/-- The number of bytes that follow the first one of a character. -/
def more (n : Nat) : Nat :=
  if n ≤ 0x7f then 0 else if n ≤ 0x7ff then 1 else if n ≤ 0xffff then 2 else 3

/-- The first byte of a character. -/
def lead (n : Nat) : Nat :=
  if n ≤ 0x7f then n
  else if n ≤ 0x7ff then n / 64 + 0xc0
  else if n ≤ 0xffff then n / 4096 + 0xe0
  else n / 262144 + 0xf0

theorem utf8EncodeChar_eq (c : Char) :
    String.utf8EncodeChar c = UInt8.ofNat (lead c.toNat) :: continuations (more c.toNat) c.toNat := by
  have hmost := toNat_lt c
  simp only [String.utf8EncodeChar, lead, more]
  rw [show c.val.toNat = c.toNat from rfl]
  generalize c.toNat = n at hmost
  split_ifs with hone htwo hthree
  · rfl
  · rw [show n / 64 % 32 = n / 64 by omega]
    simp [continuations]
  · rw [show n / 4096 % 16 = n / 4096 by omega]
    simp [continuations]
  · rw [show n / 262144 % 8 = n / 262144 by omega]
    simp [continuations]

theorem compare_ofNat_of_lt {a b : Nat} (h : a < b) (hb : b < 256) :
    compare (UInt8.ofNat a) (UInt8.ofNat b) = .lt := by
  rw [Std.compare_eq_lt, UInt8.lt_iff_toNat_lt, UInt8.toNat_ofNat_of_lt' (Nat.lt_trans h hb),
    UInt8.toNat_ofNat_of_lt' hb]
  exact h

/-- Of two numbers that differ in their last digits the higher one has the higher digits. -/
theorem compare_continuations {k m n : Nat} (h : m / 64 ^ k = n / 64 ^ k) (hlt : m < n)
    (xs ys : List UInt8) :
    compare (continuations k m ++ xs) (continuations k n ++ ys) = .lt := by
  induction k with
  | zero => omega
  | succ k ih =>
    rw [Nat.pow_succ, ← Nat.div_div_eq_div_mul, ← Nat.div_div_eq_div_mul] at h
    have hle : m / 64 ^ k ≤ n / 64 ^ k := Nat.div_le_div_right (Nat.le_of_lt hlt)
    rcases Nat.lt_or_eq_of_le hle with hdigit | hdigit
    · exact compare_cons_of_lt (compare_ofNat_of_lt (by omega) (by omega)) _ _
    · rw [continuations, continuations, hdigit]
      exact (compare_append_left [_] _ _).trans (ih hdigit)

/-- A higher character has a higher first byte, or as many bytes after the same one. -/
theorem lead_of_lt {m n : Nat} (hlt : m < n) :
    lead m < lead n ∨
      lead m = lead n ∧ more m = more n ∧ m / 64 ^ more m = n / 64 ^ more m := by
  unfold lead more
  split_ifs <;> omega

theorem lead_lt {n : Nat} (h : n < 0x110000) : lead n < 256 := by
  unfold lead
  split_ifs <;> omega

theorem compare_utf8EncodeChar_of_lt {c d : Char} (h : c < d) (xs ys : List UInt8) :
    compare (String.utf8EncodeChar c ++ xs) (String.utf8EncodeChar d ++ ys) = .lt := by
  rw [utf8EncodeChar_eq, utf8EncodeChar_eq]
  rcases lead_of_lt (show c.toNat < d.toNat from h) with hlead | ⟨hlead, hmore, hdigits⟩
  · exact compare_cons_of_lt (compare_ofNat_of_lt hlead (lead_lt (toNat_lt d))) _ _
  · rw [← hlead, ← hmore]
    exact (compare_append_left [_] _ _).trans (compare_continuations hdigits h _ _)

/-- Bytes compare as the characters that they begin with, whatever comes after these. -/
theorem compare_utf8EncodeChar (c d : Char) (xs ys : List UInt8) :
    compare (String.utf8EncodeChar c ++ xs) (String.utf8EncodeChar d ++ ys) =
      (compare c d).then (compare xs ys) := by
  cases hcompare : compare c d with
  | lt => exact compare_utf8EncodeChar_of_lt (compare_eq_lt_iff.mp hcompare) xs ys
  | eq =>
    rw [Std.LawfulEqOrd.eq_of_compare hcompare]
    exact compare_append_left _ xs ys
  | gt =>
    have hlt := compare_eq_lt_iff.mp (Std.OrientedCmp.gt_iff_lt.mp hcompare)
    exact Std.OrientedCmp.gt_iff_lt.mpr (compare_utf8EncodeChar_of_lt hlt ys xs)

/-! ### Bytes of texts -/

theorem compare_flatMap (cs ds : List Char) :
    compare (cs.flatMap String.utf8EncodeChar) (ds.flatMap String.utf8EncodeChar) = compare cs ds := by
  induction cs generalizing ds with
  | nil =>
    cases ds with
    | nil => rfl
    | cons d ds =>
      rw [List.flatMap_cons, utf8EncodeChar_eq]
      rfl
  | cons c cs ih =>
    cases ds with
    | nil =>
      rw [List.flatMap_cons, utf8EncodeChar_eq]
      rfl
    | cons d ds =>
      rw [List.flatMap_cons, List.flatMap_cons, compare_utf8EncodeChar, ih, List.compare_cons_cons]

/-- Texts compare as their bytes. -/
theorem compare_encode (s t : String) : compare (encode s) (encode t) = compare s.toList t.toList := by
  rw [encode_eq_flatMap, encode_eq_flatMap, compare_flatMap]

end Utf8

end Herald.Text
