import Herald.Proofs.Text.Utf8
import Herald.Webhook.Signature
import Mathlib.Data.List.Basic
import Mathlib.Tactic.SplitIfs

/-!
What shows that a sender knows the secret. A signature verifies exactly if it is the scheme and the
digits of the keyed digest of the body, in letters of either case, and a token if it is the same text.
-/

namespace Herald

/-! ### Digits -/

namespace Text.Hex

theorem toNat_digit : ∀ n < 16, (digit n).toNat = if n < 10 then 48 + n else 87 + n := by
  decide

theorem toNat_toLower (c : Char) :
    c.toLower.toNat = if 65 ≤ c.toNat ∧ c.toNat ≤ 90 then c.toNat + 32 else c.toNat := by
  have hupper : c.val ≥ 'A'.val ∧ c.val ≤ 'Z'.val ↔ 65 ≤ c.toNat ∧ c.toNat ≤ 90 := Iff.rfl
  have hshift : ('a'.val - 'A'.val).toNat = 32 := rfl
  unfold Char.toLower
  split
  · rename_i h
    have hbounds := hupper.mp h
    rw [if_pos hbounds, Char.toNat_mk, UInt32.toNat_add, Char.toNat_val, hshift]
    omega
  · rename_i h
    rw [if_neg (mt hupper.mpr h)]

/-- A character stands for a number if it is the digit of the number, in either case. -/
theorem digitValue_eq_some_iff {c : Char} {n : Nat} :
    digitValue c = some n ↔ n < 16 ∧ c.toLower = digit n := by
  have hdigit : n < 16 ∧ c.toLower = digit n ↔
      n < 16 ∧ c.toLower.toNat = if n < 10 then 48 + n else 87 + n := by
    apply and_congr_right
    intro hn
    rw [← toNat_digit n hn, Char.toNat_inj]
  have hle : ∀ {a b : Char}, a ≤ b ↔ a.toNat ≤ b.toNat := Iff.rfl
  rw [hdigit, toNat_toLower, digitValue]
  simp only [hle, show '0'.toNat = 48 from rfl, show '9'.toNat = 57 from rfl,
    show 'a'.toNat = 97 from rfl, show 'f'.toNat = 102 from rfl, show 'A'.toNat = 65 from rfl,
    show 'F'.toNat = 70 from rfl]
  generalize c.toNat = code
  split_ifs <;> simp only [Option.some.injEq, false_iff] <;> omega

theorem ofNat_eq_iff {high low : Nat} (hhigh : high < 16) (hlow : low < 16) {b : UInt8} :
    UInt8.ofNat (16 * high + low) = b ↔ high = b.toNat / 16 ∧ low = b.toNat % 16 := by
  have hb : b.toNat < 256 := b.toNat_lt_size
  rw [← UInt8.toNat_inj, UInt8.toNat_ofNat_of_lt' (by simp only [UInt8.size]; omega)]
  omega

theorem decodeList_cons_cons {high low : Char} {rest : List Char} {b : UInt8}
    {bytes : List UInt8} :
    decodeList (high :: low :: rest) = some (b :: bytes) ↔
      digitValue high = some (b.toNat / 16) ∧ digitValue low = some (b.toNat % 16) ∧
        decodeList rest = some bytes := by
  rw [decodeList]
  cases hhigh : digitValue high with
  | none => simp
  | some h =>
    cases hlow : digitValue low with
    | none => simp
    | some l =>
      cases decodeList rest with
      | none => simp
      | some tail =>
        have hh := (digitValue_eq_some_iff.mp hhigh).1
        have hl := (digitValue_eq_some_iff.mp hlow).1
        simp only [Option.some.injEq, List.cons.injEq, ofNat_eq_iff hh hl, and_assoc]

theorem decodeList_cons_ne_nil {c : Char} {rest : List Char} :
    decodeList (c :: rest) ≠ some [] := by
  cases rest with
  | nil => exact nofun
  | cons d rest =>
    rw [decodeList]
    split <;> simp

/-- Bytes are read from their digits in either case, and from nothing else. -/
theorem decodeList_eq_some_iff {digits : List Char} {bytes : List UInt8} :
    decodeList digits = some bytes ↔ digits.map Char.toLower = encodeList bytes := by
  induction bytes generalizing digits with
  | nil =>
    cases digits with
    | nil => simp [decodeList, encodeList]
    | cons c rest => simp [decodeList_cons_ne_nil, encodeList]
  | cons b bytes ih =>
    have hb : b.toNat < 256 := b.toNat_lt_size
    have hhigh : b.toNat / 16 < 16 := by omega
    have hlow : b.toNat % 16 < 16 := by omega
    match digits with
    | [] => simp [decodeList, encodeList]
    | [_] => simp [decodeList, encodeList]
    | high :: low :: rest =>
      rw [decodeList_cons_cons, ih, digitValue_eq_some_iff, digitValue_eq_some_iff]
      simp [encodeList, hhigh, hlow]

end Text.Hex

/-! ### Signatures and tokens -/

namespace Webhook.Signature

theorem foldl_or_eq_zero_iff {bytes : List UInt8} {start : UInt8} :
    bytes.foldl (· ||| ·) start = 0 ↔ start = 0 ∧ ∀ b ∈ bytes, b = 0 := by
  induction bytes generalizing start with
  | nil => simp
  | cons b rest ih =>
    rw [List.foldl_cons, ih, UInt8.or_eq_zero_iff, List.forall_mem_cons, and_assoc]

/-- A comparison that does not stop at the first difference still finds every difference. -/
@[simp] theorem sameBytes_iff {a b : List UInt8} : sameBytes a b ↔ a = b := by
  rw [sameBytes, Bool.and_eq_true, beq_iff_eq, beq_iff_eq, foldl_or_eq_zero_iff]
  induction a generalizing b with
  | nil => cases b <;> simp
  | cons x a ih =>
    cases b with
    | nil => simp
    | cons y b =>
      rw [List.cons.injEq, ← ih, List.zipWith_cons_cons, List.forall_mem_cons,
        UInt8.xor_eq_zero_iff]
      simp only [List.length_cons, Nat.add_right_cancel_iff, true_and]
      exact and_left_comm

/-- The text is the scheme and the digits of the bytes, in letters of either case. -/
def Spells (header : String) (signature : List UInt8) : Prop :=
  ∃ digits, header = "sha256=" ++ String.ofList digits ∧
    digits.map Char.toLower = Text.Hex.encodeList signature

theorem parseHeader_eq_some_iff {header : String} {signature : List UInt8} :
    parseHeader header = some signature ↔ Spells header signature := by
  have hheader : ∀ digits, header = "sha256=" ++ String.ofList digits ↔
      header.toList = scheme ++ digits := by
    intro digits
    rw [← String.toList_inj, String.toList_append, @String.toList_ofList digits]
    rfl
  simp only [Spells, hheader]
  constructor
  · intro h
    unfold parseHeader at h
    split at h
    · rename_i hscheme
      obtain ⟨digits, hdigits⟩ := List.isPrefixOf_iff_prefix.mp hscheme
      rw [← hdigits, List.drop_left, Text.Hex.decodeList_eq_some_iff] at h
      exact ⟨digits, hdigits.symm, h⟩
    · cases h
  · rintro ⟨digits, hdigits, hlower⟩
    have hscheme : scheme.isPrefixOf (scheme ++ digits) :=
      List.isPrefixOf_iff_prefix.mpr (List.prefix_append scheme digits)
    rw [parseHeader, hdigits, if_pos hscheme, List.drop_left, Text.Hex.decodeList_eq_some_iff]
    exact hlower

theorem verify_iff {payload secret : List UInt8} {header : String} :
    verify payload header secret ↔ Spells header (compute payload secret) := by
  rw [← parseHeader_eq_some_iff, verify]
  cases parseHeader header with
  | none => simp
  | some stated => exact sameBytes_iff.trans (by rw [Option.some.injEq, eq_comm])

@[simp] theorem verifyToken_iff {provided expected : String} :
    verifyToken provided expected ↔ provided = expected := by
  rw [verifyToken, sameBytes_iff, Text.Utf8.toList_toUTF8_inj]

end Webhook.Signature

end Herald
