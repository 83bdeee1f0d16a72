import Herald.Text.Utf8
import Mathlib.Data.List.Basic
import Mathlib.Tactic.SplitIfs

/-!
Texts as bytes. A character is read back from the one to four bytes that it is written as, whatever
comes after them, and so a text from its bytes.
-/

namespace Herald.Text.Utf8

/-! ### Lists of bytes -/

theorem toList_loop (bytes : ByteArray) (i : Nat) (before : List UInt8) :
    ByteArray.toList.loop bytes i before = before.reverse ++ bytes.data.toList.drop i := by
  fun_induction ByteArray.toList.loop bytes i before with
  | case1 i before hi ih =>
    have hi' : i < bytes.data.toList.length := hi
    have hget : bytes.get! i = bytes.data.toList[i] := by
      simp [ByteArray.get!, getElem!_pos bytes.data i hi]
    rw [ih, List.drop_eq_getElem_cons hi', hget, List.reverse_cons, List.append_assoc]
    rfl
  | case2 i before hi =>
    have hi' : bytes.data.toList.length ≤ i := Nat.not_lt.mp hi
    rw [List.drop_eq_nil_of_le hi', List.append_nil]

theorem toList_eq (bytes : ByteArray) : bytes.toList = bytes.data.toList :=
  toList_loop bytes 0 []

/-- Different texts have different bytes. -/
theorem toList_toUTF8_inj {s t : String} : s.toUTF8.toList = t.toUTF8.toList ↔ s = t := by
  rw [toList_eq, toList_eq, Array.toList_inj, ← ByteArray.ext_iff, String.toUTF8, String.toUTF8,
    String.toByteArray_inj]

theorem encode_eq_flatMap (s : String) : encode s = s.toList.flatMap String.utf8EncodeChar := by
  rw [encode, toList_eq, String.toUTF8_eq_toByteArray]
  conv_lhs => rw [← String.ofList_toList (s := s)]
  rw [String.toByteArray_ofList, List.utf8Encode, List.toList_data_toByteArray]

/-! ### Characters -/

variable {n : Nat} {b b1 b2 b3 : UInt8} {c : Char} {rest : List UInt8}

theorem continuation_eq (h : b.toNat = n + 0x80) (hn : n < 64) : continuation b = some n := by
  have hrange : 0x80 ≤ b ∧ b < 0xc0 := by
    simp only [UInt8.le_iff_toNat_le, UInt8.lt_iff_toNat_lt, h, UInt8.reduceToNat]
    omega
  rw [continuation, if_pos hrange, h, Nat.add_sub_cancel]

theorem scalar_eq {least : Nat} (h : n = c.toNat) (hleast : least ≤ c.toNat) :
    scalar least n = some c := by
  rw [scalar, h, if_pos ⟨hleast, c.valid⟩, Char.ofNat_toNat]

theorem first_one (h : b.toNat = c.toNat) (hmost : c.toNat < 0x80) : first b rest = some (c, 0) := by
  have hrange : b < 0x80 := by simpa [UInt8.lt_iff_toNat_lt, h]
  unfold first
  rw [if_pos hrange, h, Char.ofNat_toNat]

theorem first_two (h : b.toNat = c.toNat / 64 + 0xc0) (h1 : b1.toNat = c.toNat % 64 + 0x80)
    (hleast : 0x80 ≤ c.toNat) (hmost : c.toNat < 0x800) :
    first b (b1 :: rest) = some (c, 1) := by
  have hrange : ¬b < 0x80 ∧ ¬b < 0xc0 ∧ b < 0xe0 := by
    simp only [UInt8.lt_iff_toNat_lt, h, UInt8.reduceToNat]
    omega
  have hn1 := continuation_eq h1 (Nat.mod_lt _ (by decide))
  have hscalar : scalar 0x80 ((b.toNat - 0xc0) * 64 + c.toNat % 64) = some c :=
    scalar_eq (by omega) hleast
  rw [first, if_neg hrange.1, if_neg hrange.2.1, if_pos hrange.2.2]
  simp [hn1, hscalar]

theorem first_three (h : b.toNat = c.toNat / 4096 + 0xe0)
    (h1 : b1.toNat = c.toNat / 64 % 64 + 0x80) (h2 : b2.toNat = c.toNat % 64 + 0x80)
    (hleast : 0x800 ≤ c.toNat) (hmost : c.toNat < 0x10000) :
    first b (b1 :: b2 :: rest) = some (c, 2) := by
  have hrange : ¬b < 0x80 ∧ ¬b < 0xc0 ∧ ¬b < 0xe0 ∧ b < 0xf0 := by
    simp only [UInt8.lt_iff_toNat_lt, h, UInt8.reduceToNat]
    omega
  have hn1 := continuation_eq h1 (Nat.mod_lt _ (by decide))
  have hn2 := continuation_eq h2 (Nat.mod_lt _ (by decide))
  have hscalar : scalar 0x800 (((b.toNat - 0xe0) * 64 + c.toNat / 64 % 64) * 64 + c.toNat % 64) =
      some c :=
    scalar_eq (by omega) hleast
  rw [first, if_neg hrange.1, if_neg hrange.2.1, if_neg hrange.2.2.1, if_pos hrange.2.2.2]
  simp [hn1, hn2, hscalar]

theorem first_four (h : b.toNat = c.toNat / 262144 + 0xf0)
    (h1 : b1.toNat = c.toNat / 4096 % 64 + 0x80) (h2 : b2.toNat = c.toNat / 64 % 64 + 0x80)
    (h3 : b3.toNat = c.toNat % 64 + 0x80) (hleast : 0x10000 ≤ c.toNat)
    (hmost : c.toNat < 0x200000) :
    first b (b1 :: b2 :: b3 :: rest) = some (c, 3) := by
  have hrange : ¬b < 0x80 ∧ ¬b < 0xc0 ∧ ¬b < 0xe0 ∧ ¬b < 0xf0 ∧ b < 0xf8 := by
    simp only [UInt8.lt_iff_toNat_lt, h, UInt8.reduceToNat]
    omega
  have hn1 := continuation_eq h1 (Nat.mod_lt _ (by decide))
  have hn2 := continuation_eq h2 (Nat.mod_lt _ (by decide))
  have hn3 := continuation_eq h3 (Nat.mod_lt _ (by decide))
  have hscalar : scalar 0x10000
      ((((b.toNat - 0xf0) * 64 + c.toNat / 4096 % 64) * 64 + c.toNat / 64 % 64) * 64 +
        c.toNat % 64) = some c :=
    scalar_eq (by omega) hleast
  rw [first, if_neg hrange.1, if_neg hrange.2.1, if_neg hrange.2.2.1, if_neg hrange.2.2.2.1,
    if_pos hrange.2.2.2.2]
  simp [hn1, hn2, hn3, hscalar]

theorem toNat_lt (c : Char) : c.toNat < 0x110000 := by
  obtain h | h := c.valid
  · exact Nat.lt_trans h (by decide)
  · exact h.2

/-- The bytes of a character are read as it, whatever comes after them. -/
theorem decodeAfter_utf8EncodeChar (c : Char) (rest : List UInt8) :
    decodeAfter 0 (String.utf8EncodeChar c ++ rest) = some c :: decodeAfter 0 rest := by
  have hmost := toNat_lt c
  have htoNat : ∀ n < 256, (UInt8.ofNat n).toNat = n := fun n => UInt8.toNat_ofNat_of_lt'
  unfold String.utf8EncodeChar
  rw [show c.val.toNat = c.toNat from rfl]
  dsimp only
  split_ifs with hone htwo hthree
  · have hfirst : first (UInt8.ofNat c.toNat) rest = some (c, 0) :=
      first_one (htoNat _ (by omega)) (by omega)
    simp only [List.cons_append, List.nil_append, decodeAfter, hfirst]
  · have hfirst : first (UInt8.ofNat (c.toNat / 64 % 32 + 192))
        (UInt8.ofNat (c.toNat % 64 + 128) :: rest) = some (c, 1) :=
      first_two (by rw [htoNat _ (by omega)]; omega) (htoNat _ (by omega)) (by omega) (by omega)
    simp only [List.cons_append, List.nil_append, decodeAfter, hfirst]
  · have hfirst : first (UInt8.ofNat (c.toNat / 4096 % 16 + 224))
        (UInt8.ofNat (c.toNat / 64 % 64 + 128) :: UInt8.ofNat (c.toNat % 64 + 128) :: rest) =
          some (c, 2) :=
      first_three (by rw [htoNat _ (by omega)]; omega) (htoNat _ (by omega)) (htoNat _ (by omega))
        (by omega) (by omega)
    simp only [List.cons_append, List.nil_append, decodeAfter, hfirst]
  · have hfirst : first (UInt8.ofNat (c.toNat / 262144 % 8 + 240))
        (UInt8.ofNat (c.toNat / 4096 % 64 + 128) :: UInt8.ofNat (c.toNat / 64 % 64 + 128) ::
          UInt8.ofNat (c.toNat % 64 + 128) :: rest) = some (c, 3) :=
      first_four (by rw [htoNat _ (by omega)]; omega) (htoNat _ (by omega)) (htoNat _ (by omega))
        (htoNat _ (by omega)) (by omega) (by omega)
    simp only [List.cons_append, List.nil_append, decodeAfter, hfirst]

/-! ### Texts -/

/-- What a text is written as is read back without a gap. -/
@[simp] theorem decodeWithGaps_encode (s : String) : decodeWithGaps (encode s) = s.toList.map some := by
  rw [encode_eq_flatMap, decodeWithGaps]
  induction s.toList with
  | nil => rfl
  | cons c rest ih => rw [List.flatMap_cons, decodeAfter_utf8EncodeChar, ih, List.map_cons]

end Herald.Text.Utf8
