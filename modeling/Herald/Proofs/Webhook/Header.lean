import Herald.Proofs.Webhook.Signature

/-!
Headers with a signature. A header is read exactly if it is the scheme and pairs of digits, and is written
back in lower case. Of all headers those verify that state the signature of the body under the secret,
which has 32 bytes.
-/

namespace Herald

/-! ### Digests -/

namespace Digest

@[simp] theorem Sha256.length_digest (message : List UInt8) : (Sha256.digest message).length = 32 := by
  simp [Sha256.digest, Sha256.State.words, Sha256.bytesOf]

@[simp] theorem length_hmac (secret message : List UInt8) : (hmac secret message).length = 32 :=
  Sha256.length_digest _

end Digest

/-! ### Digits -/

namespace Text.Hex

/-- A hexadecimal digit, in either case. -/
def IsDigit (c : Char) : Prop :=
  ('0' ≤ c ∧ c ≤ '9') ∨ ('a' ≤ c ∧ c ≤ 'f') ∨ ('A' ≤ c ∧ c ≤ 'F')

variable {c : Char} {digits : List Char}

theorem isSome_digitValue_iff : (digitValue c).isSome ↔ IsDigit c := by
  unfold digitValue IsDigit
  split_ifs with hdecimal hlower hupper <;> simp [*]

theorem isSome_decodeList_cons_cons {high low : Char} {rest : List Char} :
    (decodeList (high :: low :: rest)).isSome ↔
      IsDigit high ∧ IsDigit low ∧ (decodeList rest).isSome := by
  rw [← isSome_digitValue_iff, ← isSome_digitValue_iff, decodeList]
  cases digitValue high <;> cases digitValue low <;> cases decodeList rest <;> simp

/-- Pairs of digits are read, and nothing else. -/
theorem isSome_decodeList_iff : ∀ digits : List Char,
    (decodeList digits).isSome ↔ digits.length % 2 = 0 ∧ ∀ c ∈ digits, IsDigit c
  | [] => by simp [decodeList]
  | [_] => by simp [decodeList]
  | high :: low :: rest => by
    rw [isSome_decodeList_cons_cons, isSome_decodeList_iff rest, List.length_cons, List.length_cons,
      Nat.add_assoc, Nat.add_mod_right, List.forall_mem_cons, List.forall_mem_cons]
    constructor
    · rintro ⟨hhigh, hlow, heven, hrest⟩
      exact ⟨heven, hhigh, hlow, hrest⟩
    · rintro ⟨heven, hhigh, hlow, hrest⟩
      exact ⟨hhigh, hlow, heven, hrest⟩

theorem toLower_digit : ∀ n < 16, (digit n).toLower = digit n := by
  decide

/-- Digits are written in lower case. -/
theorem map_toLower_encodeList (bytes : List UInt8) :
    (encodeList bytes).map Char.toLower = encodeList bytes := by
  induction bytes with
  | nil => rfl
  | cons b rest ih =>
    have hb : b.toNat < 256 := b.toNat_lt_size
    rw [encodeList, List.map_cons, List.map_cons, ih, toLower_digit _ (by omega),
      toLower_digit _ (by omega)]

end Text.Hex

namespace Webhook.Signature

variable {payload secret signature : List UInt8} {header : String} {digits : List Char}

/-! ### Headers -/

theorem formatHeader_eq (signature : List UInt8) :
    formatHeader signature = "sha256=" ++ String.ofList (Text.Hex.encodeList signature) := by
  have hscheme : String.ofList scheme = "sha256=" := String.ofList_toList
  rw [formatHeader, String.ofList_append, hscheme]

/-- After the scheme there are only digits to be read. -/
@[simp] theorem parseHeader_scheme (digits : List Char) :
    parseHeader ("sha256=" ++ String.ofList digits) = Text.Hex.decodeList digits := by
  apply Option.ext
  intro signature
  rw [parseHeader_eq_some_iff, Text.Hex.decodeList_eq_some_iff]
  constructor
  · rintro ⟨read, hheader, hread⟩
    rwa [String.ofList_inj.mp (String.append_right_inj _ |>.mp hheader)]
  · intro hdigits
    exact ⟨digits, rfl, hdigits⟩

@[simp] theorem parseHeader_formatHeader (signature : List UInt8) :
    parseHeader (formatHeader signature) = some signature := by
  rw [formatHeader_eq, parseHeader_scheme, Text.Hex.decodeList_eq_some_iff]
  exact Text.Hex.map_toLower_encodeList signature

/-- A header is read exactly if pairs of digits follow the scheme. -/
theorem isSome_parseHeader_iff : (parseHeader header).isSome ↔
    ∃ digits, header = "sha256=" ++ String.ofList digits ∧ digits.length % 2 = 0 ∧
      ∀ c ∈ digits, Text.Hex.IsDigit c := by
  constructor
  · intro hread
    obtain ⟨signature, hsignature⟩ := Option.isSome_iff_exists.mp hread
    obtain ⟨digits, rfl, -⟩ := parseHeader_eq_some_iff.mp hsignature
    rw [parseHeader_scheme, Text.Hex.isSome_decodeList_iff] at hread
    exact ⟨digits, rfl, hread⟩
  · rintro ⟨digits, rfl, hdigits⟩
    rwa [parseHeader_scheme, Text.Hex.isSome_decodeList_iff]

/-- What is read is written back in lower case. -/
theorem formatHeader_of_parseHeader (h : parseHeader ("sha256=" ++ String.ofList digits) = some signature) :
    formatHeader signature = "sha256=" ++ String.ofList (digits.map Char.toLower) := by
  rw [parseHeader_scheme, Text.Hex.decodeList_eq_some_iff] at h
  rw [formatHeader_eq, h]

/-! ### Verification -/

theorem verify_iff_parseHeader :
    verify payload header secret ↔ parseHeader header = some (compute payload secret) := by
  rw [verify_iff, parseHeader_eq_some_iff]

@[simp] theorem length_compute (payload secret : List UInt8) : (compute payload secret).length = 32 :=
  Digest.length_hmac secret payload

theorem not_verify_of_ne (hread : parseHeader header = some signature)
    (hne : signature ≠ compute payload secret) : ¬verify payload header secret := by
  rw [verify_iff_parseHeader, hread, Option.some.injEq]
  exact hne

/-- Signatures have one written form, which reads back, and are read in either case. -/
structure WritesAndReads : Prop where
  readsBack : ∀ signature, parseHeader (formatHeader signature) = some signature
  accepted : ∀ header, (parseHeader header).isSome ↔
    ∃ digits, header = "sha256=" ++ String.ofList digits ∧ digits.length % 2 = 0 ∧
      ∀ c ∈ digits, Text.Hex.IsDigit c
  lowered : ∀ digits signature,
    parseHeader ("sha256=" ++ String.ofList digits) = some signature →
      formatHeader signature = "sha256=" ++ String.ofList (digits.map Char.toLower)

theorem writesAndReads : WritesAndReads where
  readsBack := parseHeader_formatHeader
  accepted _ := isSome_parseHeader_iff
  lowered _ _ := formatHeader_of_parseHeader

/-- A body verifies under the secret with its signature and with no other. -/
structure VerifiesOnly (payload secret : List UInt8) : Prop where
  exact : ∀ header, verify payload header secret ↔
    parseHeader header = some (compute payload secret)
  length : (compute payload secret).length = 32
  signed : verify payload (formatHeader (compute payload secret)) secret
  different : ∀ header signature, parseHeader header = some signature →
    signature ≠ compute payload secret → ¬verify payload header secret
  /-- A signature that is empty, cut off or extended is none of 32 bytes. -/
  otherLength : ∀ header signature, parseHeader header = some signature →
    signature.length ≠ 32 → ¬verify payload header secret

theorem verifiesOnly (payload secret : List UInt8) : VerifiesOnly payload secret where
  exact _ := verify_iff_parseHeader
  length := length_compute payload secret
  signed := verify_iff_parseHeader.mpr (parseHeader_formatHeader _)
  different _ _ := not_verify_of_ne
  otherLength _ _ hread hlength := by
    apply not_verify_of_ne hread
    rintro rfl
    exact hlength (length_compute payload secret)

/-- Whatever the body and the secret, the headers that verify are those that spell the signature. -/
theorem only_exact_signatures_verify :
    WritesAndReads ∧ ∀ payload secret : List UInt8, VerifiesOnly payload secret :=
  ⟨writesAndReads, verifiesOnly⟩

/-- Two bytes in mixed case are no signature. -/
theorem only_exact_signatures_verify_sample :
    parseHeader "sha256=AbCd" = some [0xab, 0xcd] ∧ formatHeader [0xab, 0xcd] = "sha256=abcd" ∧
      ([0xab, 0xcd] : List UInt8).length ≠ 32 ∧ ¬verify [0x7b, 0x7d] "sha256=AbCd" [0x73] := by
  obtain ⟨hheaders, hverifies⟩ := only_exact_signatures_verify
  have hread : parseHeader "sha256=AbCd" = some [0xab, 0xcd] := by decide
  exact ⟨hread, hheaders.lowered ['A', 'b', 'C', 'd'] _ hread, by decide,
    (hverifies [0x7b, 0x7d] [0x73]).otherLength _ _ hread (by decide)⟩

end Webhook.Signature

end Herald
