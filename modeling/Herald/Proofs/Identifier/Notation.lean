import Herald.Proofs.Identifier.Set
import Herald.Proofs.Result

/-!
The written form of identifiers. A text is accepted exactly if it is `[namespace/]kind:value` with plain
parts and some value, and what is read from it is written back as it was. Every other text is refused for
the first fault that it has.
-/

namespace Herald.Identifier

open Result

/-! ### Keys -/

namespace Key

/-- The text is `[namespace/]kind`, where the namespace ends at the first slash. -/
inductive Parts (s : String) : Option String → String → Prop
  | bare (hbare : '/' ∉ s.toList) : Parts s none s
  | spaced {space kind : String} (hs : s = space ++ "/" ++ kind) (hspace : '/' ∉ space.toList) :
      Parts s (some space) kind

/-- The text is `[namespace/]kind`, and its parts are plain. -/
inductive Written (s : String) : Prop
  | bare (hkind : Plain s)
  | spaced {space kind : String} (hs : s = space ++ "/" ++ kind) (hspace : Plain space)
      (hkind : Plain kind)

/-- Why there is no key of these parts. The kind is looked at first. -/
inductive Faulty : Option String → String → Invalid → Prop
  | emptyKind {space : Option String} : Faulty space "" .emptyKind
  | separatorInKind {space : Option String} {kind : String} (hkind : kind ≠ "")
      (hsep : '/' ∈ kind.toList ∨ ':' ∈ kind.toList) : Faulty space kind (.separator .kind kind)
  | emptySpace {kind : String} (hkind : Plain kind) : Faulty (some "") kind .emptySpace
  | separatorInSpace {space kind : String} (hkind : Plain kind) (hspace : space ≠ "")
      (hsep : '/' ∈ space.toList ∨ ':' ∈ space.toList) :
      Faulty (some space) kind (.separator .space space)

/-- The text spells no key, for this reason. -/
def Refused (s : String) (e : Invalid) : Prop :=
  ∃ space kind, Parts s space kind ∧ Faulty space kind e

variable {s kind : String} {space : Option String} {k : Key} {e : Invalid}

theorem exists_parts (s : String) : ∃ space kind, Parts s space kind := by
  by_cases hslash : '/' ∈ s.toList
  · obtain ⟨before, after, hsplit, hbefore⟩ := List.eq_append_cons_of_mem hslash
    refine ⟨some (String.ofList before), String.ofList after, .spaced ?_ ?_⟩
    · apply String.toList_inj.mp
      simp [hsplit]
    · simpa using hbefore
  · exact ⟨none, s, .bare hslash⟩

theorem parse_of_parts (h : Parts s space kind) : parse s = make space kind := by
  unfold parse
  cases h with
  | bare hbare => rw [Text.cut_eq_none_iff.mpr hbare]
  | @spaced space kind hs hspace =>
    have hcut : Text.cut '/' s = some (space, kind) :=
      Text.cut_eq_some_iff.mpr ⟨by simp [hs], hspace⟩
    rw [hcut]

theorem make_eq_ok_iff : make space kind = .ok k ↔ k.space = space ∧ k.kind = kind := by
  constructor
  · intro h
    unfold make at h
    split at h
    · split at h
      · cases h
        exact ⟨rfl, rfl⟩
      · split at h
        · cases h
          exact ⟨rfl, rfl⟩
        · cases h
    · cases h
  · rintro ⟨rfl, rfl⟩
    obtain ⟨space, kind, hspace, hkind⟩ := k
    cases space with
    | none => simp [make, hkind]
    | some s => simp [make, hkind, hspace s rfl]

theorem not_plain_iff {s : String} :
    ¬Plain s ↔ s = "" ∨ s ≠ "" ∧ ('/' ∈ s.toList ∨ ':' ∈ s.toList) := by
  unfold Plain
  by_cases hempty : s = ""
  · simp [hempty]
  · simp [hempty, imp_iff_or_not, or_comm]

theorem make_eq_error_iff : make space kind = .error e ↔ Faulty space kind e := by
  constructor
  · intro h
    unfold make at h
    split at h
    · rename_i hkind
      split at h
      · cases h
      · rename_i space
        split at h
        · cases h
        · rename_i hspace
          obtain rfl := Except.error.inj h
          obtain rfl | ⟨hne, hsep⟩ := not_plain_iff.mp hspace
          · exact .emptySpace hkind
          · rw [Part.fault, if_neg hne]
            exact .separatorInSpace hkind hne hsep
    · rename_i hkind
      obtain rfl := Except.error.inj h
      obtain rfl | ⟨hne, hsep⟩ := not_plain_iff.mp hkind
      · exact .emptyKind
      · rw [Part.fault, if_neg hne]
        exact .separatorInKind hne hsep
  · intro h
    cases h with
    | emptyKind => rfl
    | separatorInKind hne hsep =>
      rw [make, dif_neg (not_plain_iff.mpr (.inr ⟨hne, hsep⟩)), Part.fault, if_neg hne]
    | emptySpace hkind => rw [make, dif_pos hkind]; rfl
    | separatorInSpace hkind hne hsep =>
      rw [make, dif_pos hkind]
      dsimp only
      rw [dif_neg (not_plain_iff.mpr (.inr ⟨hne, hsep⟩)), Part.fault, if_neg hne]

theorem parts_text (k : Key) : Parts k.text k.space k.kind := by
  unfold text
  cases hspace : k.space with
  | none => exact .bare k.kind_plain.2.1
  | some space => exact .spaced rfl (k.space_plain space hspace).2.1

theorem text_of_parts (h : Parts s k.space k.kind) : k.text = s := by
  unfold text
  generalize k.space = space, k.kind = kind at h
  cases h with
  | bare => rfl
  | spaced hs => exact hs.symm

/-- Reading a key inverts writing it. -/
theorem parse_eq_ok_iff : parse s = .ok k ↔ s = k.text := by
  constructor
  · intro h
    obtain ⟨space, kind, hparts⟩ := exists_parts s
    rw [parse_of_parts hparts] at h
    obtain ⟨rfl, rfl⟩ := make_eq_ok_iff.mp h
    exact (text_of_parts hparts).symm
  · rintro rfl
    rw [parse_of_parts k.parts_text]
    exact make_eq_ok_iff.mpr ⟨rfl, rfl⟩

@[simp] theorem parse_text (k : Key) : parse k.text = .ok k :=
  parse_eq_ok_iff.mpr rfl

theorem written_text (k : Key) : Written k.text := by
  unfold text
  cases hspace : k.space with
  | none => exact .bare k.kind_plain
  | some space => exact .spaced rfl (k.space_plain space hspace) k.kind_plain

theorem exists_text_of_written (h : Written s) : ∃ k : Key, s = k.text := by
  cases h with
  | bare hkind => exact ⟨⟨none, s, plain_of_mem_none, hkind⟩, rfl⟩
  | @spaced space kind hs hspace hkind =>
    exact ⟨⟨some space, kind, by simpa using hspace, hkind⟩, hs⟩

theorem exists_parse_eq_ok_iff : (∃ k, parse s = .ok k) ↔ Written s := by
  constructor
  · rintro ⟨k, h⟩
    rw [parse_eq_ok_iff.mp h]
    exact k.written_text
  · intro h
    obtain ⟨k, hk⟩ := exists_text_of_written h
    exact ⟨k, parse_eq_ok_iff.mpr hk⟩

theorem parse_eq_error_iff : parse s = .error e ↔ Refused s e := by
  constructor
  · intro h
    obtain ⟨space, kind, hparts⟩ := exists_parts s
    rw [parse_of_parts hparts] at h
    exact ⟨space, kind, hparts, make_eq_error_iff.mp h⟩
  · rintro ⟨space, kind, hparts, hfaulty⟩
    rw [parse_of_parts hparts]
    exact make_eq_error_iff.mpr hfaulty

end Key

/-! ### Identifiers -/

/-- The text is `[namespace/]kind:value` with plain parts; the value may hold anything, but is not
empty. -/
inductive Written (s : String) : Prop
  | make {key value : String} (hs : s = key ++ ":" ++ value) (hkey : Key.Written key)
      (hvalue : value ≠ "")

/-- Why a text spells no identifier. What comes before the first colon is looked at before what comes
after it, and there the kind before the namespace. -/
inductive Refused (s : String) : Invalid → Prop
  | malformed (hcolon : ':' ∉ s.toList) : Refused s (.malformed s)
  | emptyKind {key value : String} {space : Option String} (hs : s = key ++ ":" ++ value)
      (hcolon : ':' ∉ key.toList) (hparts : Key.Parts key space "") : Refused s .emptyKind
  | separator {key value kind : String} {space : Option String} (hs : s = key ++ ":" ++ value)
      (hcolon : ':' ∉ key.toList) (hparts : Key.Parts key space kind) (hkind : kind ≠ "")
      (hslash : '/' ∈ kind.toList) : Refused s (.separator .kind kind)
  | emptySpace {key value kind : String} (hs : s = key ++ ":" ++ value) (hcolon : ':' ∉ key.toList)
      (hparts : Key.Parts key (some "") kind) (hkind : Plain kind) : Refused s .emptySpace
  | emptyValue {key : String} (hs : s = key ++ ":") (hkey : Key.Written key) : Refused s .emptyValue

variable {s key value kind : String} {space : Option String} {id : Identifier} {e : Invalid}

/-- The first colon ends the key. -/
theorem parse_of_colon (hs : s = key ++ ":" ++ value) (hcolon : ':' ∉ key.toList) :
    parse s = Key.parse key >>= fun k => k.withValue value := by
  have hcut : Text.cut ':' s = some (key, value) :=
    Text.cut_eq_some_iff.mpr ⟨by simp [hs], hcolon⟩
  rw [parse, hcut]

theorem exists_colon (h : ':' ∈ s.toList) :
    ∃ key value : String, s = key ++ ":" ++ value ∧ ':' ∉ key.toList := by
  obtain ⟨before, after, hsplit, hbefore⟩ := List.eq_append_cons_of_mem h
  refine ⟨String.ofList before, String.ofList after, ?_, by simpa using hbefore⟩
  apply String.toList_inj.mp
  simp [hsplit]

theorem Key.colon_notMem_text (k : Key) : ':' ∉ k.text.toList := by
  rw [toList_text, characters]
  cases hspace : k.space with
  | none => exact k.kind_plain.2.2
  | some space => simp [(k.space_plain space hspace).2.2, k.kind_plain.2.2]

theorem Key.withValue_eq_ok_iff {k : Key} :
    k.withValue value = .ok id ↔ id.key = k ∧ id.value = value := by
  unfold withValue
  constructor
  · intro h
    split at h
    · cases h
    · cases h
      exact ⟨rfl, rfl⟩
  · rintro ⟨rfl, rfl⟩
    rw [dif_neg id.value_ne_empty]

theorem Key.withValue_eq_error_iff {k : Key} :
    k.withValue value = .error e ↔ value = "" ∧ e = .emptyValue := by
  unfold withValue
  split
  · rename_i hempty
    simp [hempty, eq_comm]
  · rename_i hvalue
    simp [hvalue]

/-- Building an identifier gives the one with these parts. -/
theorem make_eq_ok_iff :
    make space kind value = .ok id ↔ id.key.space = space ∧ id.key.kind = kind ∧ id.value = value := by
  unfold make
  rw [bind_eq_ok]
  constructor
  · rintro ⟨k, hk, hid⟩
    obtain ⟨rfl, hvalue⟩ := Key.withValue_eq_ok_iff.mp hid
    obtain ⟨hspace, hkind⟩ := Key.make_eq_ok_iff.mp hk
    exact ⟨hspace, hkind, hvalue⟩
  · rintro ⟨hspace, hkind, hvalue⟩
    exact ⟨id.key, Key.make_eq_ok_iff.mpr ⟨hspace, hkind⟩, Key.withValue_eq_ok_iff.mpr ⟨rfl, hvalue⟩⟩

/-- Reading an identifier inverts writing it. -/
theorem parse_eq_ok_iff : parse s = .ok id ↔ s = id.text := by
  constructor
  · intro h
    by_cases hcolon : ':' ∈ s.toList
    · obtain ⟨key, value, hs, hkey⟩ := exists_colon hcolon
      rw [parse_of_colon hs hkey] at h
      obtain ⟨k, hk, hid⟩ := bind_eq_ok.mp h
      obtain ⟨rfl, rfl⟩ := Key.withValue_eq_ok_iff.mp hid
      rw [hs, Key.parse_eq_ok_iff.mp hk]
      rfl
    · rw [parse, Text.cut_eq_none_iff.mpr hcolon] at h
      cases h
  · rintro rfl
    rw [text, parse_of_colon rfl id.key.colon_notMem_text, Key.parse_text]
    exact Key.withValue_eq_ok_iff.mpr ⟨rfl, rfl⟩

theorem exists_parse_eq_ok_iff : (∃ id, parse s = .ok id) ↔ Written s := by
  constructor
  · rintro ⟨id, h⟩
    exact .make (parse_eq_ok_iff.mp h) id.key.written_text id.value_ne_empty
  · rintro ⟨hs, hkey, hvalue⟩
    obtain ⟨k, rfl⟩ := Key.exists_text_of_written hkey
    exact ⟨⟨k, _, hvalue⟩, parse_eq_ok_iff.mpr hs⟩

/-- Parts of a text without colon have none. -/
theorem Key.Parts.colon_notMem (h : Parts key space kind) (hcolon : ':' ∉ key.toList) :
    (∀ s ∈ space, ':' ∉ s.toList) ∧ ':' ∉ kind.toList := by
  cases h with
  | bare => exact ⟨nofun, hcolon⟩
  | spaced hs =>
    rw [hs] at hcolon
    simpa using hcolon

theorem Key.Parts.slash_notMem (h : Parts key space kind) : ∀ s ∈ space, '/' ∉ s.toList := by
  cases h with
  | bare => exact nofun
  | spaced hs hspace => simpa using hspace

/-- What is wrong with a key before a colon. -/
theorem refused_of_key (hs : s = key ++ ":" ++ value) (hcolon : ':' ∉ key.toList)
    (h : Key.Refused key e) : Refused s e := by
  obtain ⟨space, kind, hparts, hfaulty⟩ := h
  obtain ⟨hspaceColon, hkindColon⟩ := hparts.colon_notMem hcolon
  have hspaceSlash := hparts.slash_notMem
  cases hfaulty with
  | emptyKind => exact .emptyKind hs hcolon hparts
  | separatorInKind hne hsep => exact .separator hs hcolon hparts hne (hsep.resolve_right hkindColon)
  | emptySpace hkind => exact .emptySpace hs hcolon hparts hkind
  | separatorInSpace _ _ hsep =>
    exact absurd hsep (not_or.mpr ⟨hspaceSlash _ rfl, hspaceColon _ rfl⟩)

theorem parse_of_key_error (hs : s = key ++ ":" ++ value) (hcolon : ':' ∉ key.toList)
    (h : Key.Refused key e) : parse s = .error e := by
  rw [parse_of_colon hs hcolon, Key.parse_eq_error_iff.mpr h]
  rfl

/-- Texts are refused for the first fault, and for no other. -/
theorem parse_eq_error_iff : parse s = .error e ↔ Refused s e := by
  constructor
  · intro h
    by_cases hcolon : ':' ∈ s.toList
    · obtain ⟨key, value, hs, hkey⟩ := exists_colon hcolon
      rw [parse_of_colon hs hkey] at h
      cases hk : Key.parse key with
      | error failure =>
        rw [hk] at h
        cases h
        exact refused_of_key hs hkey (Key.parse_eq_error_iff.mp hk)
      | ok k =>
        rw [hk] at h
        obtain ⟨rfl, rfl⟩ := Key.withValue_eq_error_iff.mp h
        exact .emptyValue (by simpa using hs) (Key.exists_parse_eq_ok_iff.mp ⟨k, hk⟩)
    · rw [parse, Text.cut_eq_none_iff.mpr hcolon] at h
      cases h
      exact .malformed hcolon
  · intro h
    cases h with
    | malformed hcolon => rw [parse, Text.cut_eq_none_iff.mpr hcolon]
    | emptyKind hs hcolon hparts => exact parse_of_key_error hs hcolon ⟨_, _, hparts, .emptyKind⟩
    | separator hs hcolon hparts hne hslash =>
      exact parse_of_key_error hs hcolon ⟨_, _, hparts, .separatorInKind hne (.inl hslash)⟩
    | emptySpace hs hcolon hparts hkind =>
      exact parse_of_key_error hs hcolon ⟨_, _, hparts, .emptySpace hkind⟩
    | @emptyValue key hs hkey =>
      obtain ⟨k, rfl⟩ := Key.exists_text_of_written hkey
      have hs : s = k.text ++ ":" ++ "" := by simpa using hs
      rw [parse_of_colon hs k.colon_notMem_text, Key.parse_text]
      rfl

/-! ### Exactness -/

/-- Reading accepts exactly the written forms, gives back what was written, and refuses all other texts
for the first fault. So it is for identifiers, whichever way they were built, and for keys. -/
structure ReadsExactly (s : String) : Prop where
  accepted : (∃ id, parse s = .ok id) ↔ Written s
  inverse : ∀ id, parse s = .ok id ↔ s = id.text
  built : ∀ space kind value id, make space kind value = .ok id ↔
    id.key.space = space ∧ id.key.kind = kind ∧ id.value = value
  valued : ∀ (k : Key) value id, k.withValue value = .ok id ↔ id.key = k ∧ id.value = value
  refused : ∀ e, parse s = .error e ↔ Refused s e
  /-- Before the first colon a namespace ends at the first slash, so it holds no separator. -/
  space_sound : ∀ space, parse s ≠ .error (.separator .space space)
  key_accepted : (∃ k, Key.parse s = .ok k) ↔ Key.Written s
  key_inverse : ∀ k, Key.parse s = .ok k ↔ s = k.text
  key_refused : ∀ e, Key.parse s = .error e ↔ Key.Refused s e

theorem notation_reads_exactly (s : String) : ReadsExactly s where
  accepted := exists_parse_eq_ok_iff
  inverse _ := parse_eq_ok_iff
  built _ _ _ _ := make_eq_ok_iff
  valued _ _ _ := Key.withValue_eq_ok_iff
  refused _ := parse_eq_error_iff
  space_sound space h := by
    cases parse_eq_error_iff.mp h
  key_accepted := Key.exists_parse_eq_ok_iff
  key_inverse _ := Key.parse_eq_ok_iff
  key_refused _ := Key.parse_eq_error_iff

/-- All after the first slash is the kind, and all after the first colon the value. -/
example : parse "a/b/c:d/e:f" = .error (.separator .kind "b/c") := by
  decide

end Herald.Identifier
