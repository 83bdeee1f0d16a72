import Herald.Proofs.Ascending
import Herald.Proofs.Json.Text
import Herald.Proofs.Result
import Herald.Proofs.Text.Utf8

/-!
Reading typed values from JSON. Dictionaries read back from the objects that they are written as, and a
record is read exactly from what gives each of its fields one value that can be read.
-/

namespace Herald.Json

open Result

variable {α σ : Type}

/-! ### Whole texts -/

theorem decodeInput_eq_ok_iff {decode : Decoder α} {input : Input} {a : α} :
    decodeInput decode input = .ok a ↔
      decode (Document.read input).tree = .ok a ∧ (Document.read input).ended := by
  unfold decodeInput
  dsimp only
  cases decode (Document.read input).tree with
  | error fault => simp
  | ok b => cases (Document.read input).ended <;> simp

/-- It does not matter whether a text comes as such or as its bytes. -/
@[simp] theorem decodeBytes_encode (decode : Decoder α) (s : String) :
    decodeBytes decode (Text.Utf8.encode s) = decodeText decode s := by
  rw [decodeBytes, Input.ofBytes, Text.Utf8.decodeWithGaps_encode]
  rfl

/-- The value reads back as `a`, from its text and as it stands. -/
structure ReadsBack (decode : Decoder α) (v : Json) (a : α) : Prop where
  text : decodeText decode v.text = .ok a
  value : decodeValue decode v = .ok a

theorem ReadsBack.of_numberless {decode : Decoder α} {v : Json} {a : α} (hv : v.numberless)
    (h : decode v.toTree = .ok a) : ReadsBack decode v a :=
  ⟨decodeText_text hv h, h⟩

/-- Whatever is read from a text, from bytes or from a value is as `Made` says of what it was read
from. -/
structure ReadsOnly (decode : Decoder α) (Made : α → Tree → Prop) : Prop where
  input : ∀ input a, decodeInput decode input = .ok a → Made a (Document.read input).tree
  value : ∀ v a, decodeValue decode v = .ok a → Made a v.toTree

theorem ReadsOnly.of_decode {decode : Decoder α} {Made : α → Tree → Prop}
    (h : ∀ t a, decode t = .ok a → Made a t) : ReadsOnly decode Made where
  input _ a ha := h _ a (decodeInput_eq_ok_iff.mp ha).1
  value _ a ha := h _ a ha

/-- Whatever is read from what `Given` says is refused for this reason. -/
structure Refuses (decode : Decoder α) (Given : Tree → Prop) (reason : String) : Prop where
  input : ∀ input, Given (Document.read input).tree →
    decodeInput decode input = .error (.refused reason)
  value : ∀ v, Given v.toTree → decodeValue decode v = .error (.refused reason)

theorem Refuses.of_decode {decode : Decoder α} {Given : Tree → Prop} {reason : String}
    (h : ∀ t, Given t → decode t = .error (.refused reason)) : Refuses decode Given reason where
  input input hgiven := by
    rw [decodeInput, h _ hgiven]
    rfl
  value _ hgiven := h _ hgiven

/-! ### Dictionaries -/

/-- If every member is taken in by `step`, so are all of them in order. -/
theorem members_ok {β σ : Type} (visit : σ → String → Tree → Except Fault σ) (step : σ → β → σ)
    (member : β → String × Json) (bs : List β)
    (h : ∀ b ∈ bs, ∀ s, visit s (member b).1 (member b).2.toTree = .ok (step s b)) (s : σ) :
    Decoder.members visit s (membersOf (bs.map member)) = .ok (bs.foldl step s) := by
  induction bs generalizing s with
  | nil => rfl
  | cons b bs ih =>
    obtain ⟨hb, hbs⟩ := List.forall_mem_cons.mp h
    rw [List.foldl_cons, ← ih hbs]
    change (visit s (member b).1 (member b).2.toTree >>= fun state =>
      Decoder.members visit state (membersOf (bs.map member))) = _
    rw [hb]
    rfl

/-- A dictionary decodes if its values do. -/
theorem dictionary_ofDictionary {α : Type} {decode : Decoder α} {entry : α → Json}
    (h : ∀ a, decode (entry a).toTree = .ok a) (m : Dictionary α) :
    Decoder.dictionary decode (ofDictionary entry m).toTree = .ok m := by
  have hmembers := members_ok
    (fun entries name value => do
      let a ← decode value
      .ok (Dictionary.set entries name a))
    (fun entries p => Dictionary.set entries p.1 p.2) (fun p : String × α => (p.1, entry p.2))
    m.toList (fun p _ s => by rw [h]; rfl) ∅
  exact hmembers.trans (congrArg Except.ok (Ascending.ofList_toList m))

theorem ofDictionary_numberless {α : Type} {entry : α → Json} (h : ∀ a, (entry a).numberless)
    (m : Dictionary α) : (ofDictionary entry m).numberless := by
  apply membersNumberless_iff.mpr
  intro member hmember
  obtain ⟨p, -, rfl⟩ := List.mem_map.mp hmember
  exact h p.2

theorem lookup_members {α : Type} (entry : α → Json) (name : String)
    (entries : List (String × α)) :
    (entries.map fun e => (e.1, entry e.2)).lookup name =
      (entries.find? fun e => compare e.1 name == .eq).map fun e => entry e.2 := by
  induction entries with
  | nil => rfl
  | cons e rest ih =>
    have hcompare : (compare e.1 name == .eq) = (name == e.1) := by
      rw [Bool.eq_iff_iff, beq_iff_eq, beq_iff_eq, Std.LawfulEqOrd.compare_eq_iff_eq, eq_comm]
    rw [List.map_cons, List.lookup_cons, List.find?_cons, ih, hcompare]
    cases name == e.1 <;> rfl

/-- The members of the object are the values of the dictionary. -/
theorem member_ofDictionary {α : Type} (entry : α → Json) (m : Dictionary α) (name : String) :
    (ofDictionary entry m).member name = ((m.get? name).map entry).getD .null := by
  unfold Dictionary.get? Ascending.lookup?
  rw [Option.map_map]
  exact congrArg (Option.getD · Json.null) (lookup_members entry name m.toList)

/-! ### Values and fields -/

@[simp] theorem Decoder.string_eq_ok_iff {t : Tree} {s : String} :
    Decoder.string t = .ok s ↔ t = .string (some s) := by
  unfold Decoder.string
  split <;> simp_all

@[simp] theorem Decoder.skip_eq_ok_iff {t : Tree} {u : PUnit} : Decoder.skip t = .ok u ↔ t.whole := by
  unfold Decoder.skip
  split <;> simp_all

theorem once_eq_ok_iff {name : String} {slot slot' : Option α} {decode : Decoder α} {t : Tree} :
    once name slot decode t = .ok slot' ↔ slot = none ∧ ∃ a, decode t = .ok a ∧ slot' = some a := by
  unfold once
  cases slot with
  | some a => simp
  | none =>
    simp only [Option.isSome_none, Bool.false_eq_true, if_false, map_eq_ok, true_and]
    exact exists_congr fun a => and_congr_right fun _ => eq_comm

theorem exists_once_iff {name : String} {slot : Option α} {decode : Decoder α} {t : Tree}
    {P : Option α → Prop} : (∃ next, once name slot decode t = .ok next ∧ P next) ↔
      slot = none ∧ ∃ a, decode t = .ok a ∧ P (some a) := by
  simp only [once_eq_ok_iff]
  constructor
  · rintro ⟨_, ⟨hslot, a, ha, rfl⟩, h⟩
    exact ⟨hslot, a, ha, h⟩
  · rintro ⟨hslot, a, ha, h⟩
    exact ⟨some a, ⟨hslot, a, ha, rfl⟩, h⟩

@[simp] theorem required_eq_ok_iff {name : String} {slot : Option α} {a : α} :
    required name slot = .ok a ↔ slot = some a := by
  cases slot <;> simp [required]

/-- The values of all members with this name, in order. -/
def Members.valuesOf (name : String) : Members → List Tree
  | .next (some member) value tail =>
    if member = name then value :: tail.valuesOf name else tail.valuesOf name
  | .next none _ tail => tail.valuesOf name
  | _ => []

/-- The values that an array gives to this field of a record. -/
def Items.valuesOf (name : String) : List Field → Items → List Tree
  | field :: fields, .next head tail =>
    if field.name = name then head :: tail.valuesOf name fields else tail.valuesOf name fields
  | _, _ => []

@[simp] theorem Items.valuesOf_done (name : String) (fields : List Field) :
    Items.done.valuesOf name fields = [] := by
  cases fields <;> rfl

/-- The values that stand for this field of a record. -/
def Record.given (r : Record σ) (name : String) : Tree → List Tree
  | .object members => members.valuesOf name
  | .array items => items.valuesOf name r.fields
  | _ => []

theorem valuesOf_membersOf (name : String) (ms : List (String × Json)) :
    (membersOf ms).valuesOf name = (ms.filter fun m => m.1 = name).map fun m => m.2.toTree := by
  induction ms with
  | nil => rfl
  | cons m ms ih =>
    rw [membersOf, Members.valuesOf, ih]
    by_cases h : m.1 = name <;> simp [h]

theorem perm_valuesOf_membersOf {ms ms' : List (String × Json)} (h : ms.Perm ms') (name : String) :
    ((membersOf ms).valuesOf name).Perm ((membersOf ms').valuesOf name) := by
  rw [valuesOf_membersOf, valuesOf_membersOf]
  exact (h.filter _).map _

/-- The members whose values are known; the others are left out. -/
def known (rows : List (String × Option Json)) : List (String × Json) :=
  rows.filterMap fun row => row.2.map fun value => (row.1, value)

@[simp] theorem mem_known {rows : List (String × Option Json)} {member : String × Json} :
    member ∈ known rows ↔ (member.1, some member.2) ∈ rows := by
  simp only [known, List.mem_filterMap, Option.map_eq_some_iff]
  constructor
  · rintro ⟨⟨name, _⟩, hrow, value, rfl, rfl⟩
    exact hrow
  · intro hrow
    exact ⟨_, hrow, member.2, rfl, rfl⟩

/-- If the rows are in order, so are the members. -/
theorem pairwise_known {R : String → String → Prop} {rows : List (String × Option Json)}
    (h : (rows.map Prod.fst).Pairwise R) : (known rows).Pairwise fun a b => R a.1 b.1 := by
  refine List.pairwise_filterMap.mpr ((List.pairwise_map.mp h).imp fun hab => ?_)
  intro a ha b hb
  obtain ⟨_, -, rfl⟩ := Option.map_eq_some_iff.mp ha
  obtain ⟨_, -, rfl⟩ := Option.map_eq_some_iff.mp hb
  exact hab

/-- An object has the value of a row under its name, and nothing else, if names differ. -/
theorem valuesOf_known {rows : List (String × Option Json)} (h : (rows.map Prod.fst).Nodup)
    (name : String) : (membersOf (known rows)).valuesOf name =
      ((rows.lookup name).join.map toTree).toList := by
  induction rows with
  | nil => rfl
  | cons row rows ih =>
    obtain ⟨other, value⟩ := row
    obtain ⟨hother, hrows⟩ := List.nodup_cons.mp h
    have ih := ih hrows
    by_cases hname : other = name
    · subst hname
      have hlookup : rows.lookup other = none :=
        List.lookup_eq_none_iff.mpr fun row hrow =>
          bne_iff_ne.mpr fun heq => hother (List.mem_map.mpr ⟨row, hrow, heq.symm⟩)
      rw [hlookup] at ih
      cases value with
      | none => simpa [known, List.lookup_cons] using ih
      | some v => simpa [known, List.lookup_cons, membersOf, Members.valuesOf] using ih
    · have hne : (name == other) = false := by simpa using Ne.symm hname
      rw [List.lookup_cons, hne]
      cases value with
      | none => exact ih
      | some v => simpa [known, membersOf, Members.valuesOf, hname] using ih

/-- This is so in whatever order the members stand. -/
theorem valuesOf_of_perm_known {rows : List (String × Option Json)}
    (h : (rows.map Prod.fst).Nodup) {members : List (String × Json)}
    (hmembers : members.Perm (known rows)) (name : String) :
    (membersOf members).valuesOf name = ((rows.lookup name).join.map toTree).toList := by
  have hperm := perm_valuesOf_membersOf hmembers name
  rw [valuesOf_known h] at hperm
  cases hvalue : (rows.lookup name).join with
  | none =>
    rw [hvalue] at hperm
    exact hperm.eq_nil
  | some v =>
    rw [hvalue] at hperm
    exact List.perm_singleton.mp hperm

/-! ### Slots -/

/-- `slot'` is `slot` after it was given these values. It holds one value, which must be readable. -/
def Fills (decode : Decoder α) (slot slot' : Option α) (values : List Tree) : Prop :=
  values = [] ∧ slot' = slot ∨
    slot = none ∧ ∃ value a, values = [value] ∧ decode value = .ok a ∧ slot' = some a

section

variable {decode : Decoder α} {slot slot' : Option α} {a : α} {value : Tree} {values : List Tree}

@[simp] theorem fills_nil : Fills decode slot slot' [] ↔ slot' = slot := by
  simp [Fills]

@[simp] theorem fills_cons : Fills decode slot slot' (value :: values) ↔
    slot = none ∧ values = [] ∧ ∃ a, decode value = .ok a ∧ slot' = some a := by
  constructor
  · rintro (⟨h, -⟩ | ⟨hslot, _, a, h, ha, hslot'⟩)
    · cases h
    · cases h
      exact ⟨hslot, rfl, a, ha, hslot'⟩
  · rintro ⟨hslot, rfl, a, ha, hslot'⟩
    exact .inr ⟨hslot, value, a, rfl, ha, hslot'⟩

@[simp] theorem fills_some :
    Fills decode (some a) slot' values ↔ values = [] ∧ slot' = some a := by
  simp [Fills]

end

/-- One value is given, and it reads as `a`. -/
def Gives (decode : Decoder α) (values : List Tree) (a : α) : Prop :=
  ∃ value, values = [value] ∧ decode value = .ok a

/-- As `Gives`, but no value is needed for `absent`. -/
def GivesOr (absent : α) (decode : Decoder α) (values : List Tree) (a : α) : Prop :=
  values = [] ∧ a = absent ∨ Gives decode values a

theorem gives_iff {decode : Decoder α} {values : List Tree} {a : α} :
    Gives decode values a ↔ Fills decode none (some a) values := by
  simp only [Gives, Fills, reduceCtorEq, and_false, false_or, true_and, Option.some.injEq]
  constructor
  · rintro ⟨value, hvalues, ha⟩
    exact ⟨value, a, hvalues, ha, rfl⟩
  · rintro ⟨value, _, hvalues, ha, rfl⟩
    exact ⟨value, hvalues, ha⟩

theorem givesOr_iff {absent : α} {decode : Decoder α} {values : List Tree} {a : α} :
    GivesOr absent decode values a ↔
      ∃ slot, Fills decode none slot values ∧ slot.getD absent = a := by
  constructor
  · rintro (⟨rfl, rfl⟩ | h)
    · exact ⟨none, .inl ⟨rfl, rfl⟩, rfl⟩
    · exact ⟨some a, gives_iff.mp h, rfl⟩
  · rintro ⟨slot, ⟨rfl, rfl⟩ | ⟨-, value, b, rfl, hb, rfl⟩, rfl⟩
    · exact .inl ⟨rfl, rfl⟩
    · exact .inr ⟨value, rfl, hb⟩

/-! ### Records -/

/-- The members come to an end, and the values of all but these follow the grammar. -/
def Members.Ends (names : List String) : Members → Prop
  | .done => True
  | .cut => False
  | .next none _ _ => False
  | .next (some name) value tail => (name ∉ names → value.whole) ∧ tail.Ends names

theorem ends_membersOf {names : List String} {ms : List (String × Json)}
    (h : ∀ m ∈ ms, m.1 ∈ names) : (membersOf ms).Ends names := by
  induction ms with
  | nil => trivial
  | cons m ms ih =>
    obtain ⟨hm, hms⟩ := List.forall_mem_cons.mp h
    exact ⟨(absurd hm ·), ih hms⟩

/-- The items come to an end, there are no more of them than fields, and only fields that may lack are
left. -/
def Items.Ends : List Field → Items → Prop
  | _, .cut => False
  | fields, .done => ∀ field ∈ fields, field.mayLack
  | [], .next _ _ => False
  | _ :: fields, .next _ tail => tail.Ends fields

/-- The tree is an object or an array of which a record can be made if its fields can be read. -/
def Record.Fits (r : Record σ) : Tree → Prop
  | .object members => members.Ends (r.fields.map Field.name)
  | .array items => items.Ends r.fields
  | _ => False

/-- `Fill s s' given` says what becomes of a state if fields are given values, one by one. -/
structure Record.Tells (r : Record σ) (Fill : σ → σ → (String → List Tree) → Prop) : Prop where
  done : ∀ s s', Fill s s' (fun _ => []) ↔ s' = s
  next : ∀ s s' name value given,
    Fill s s' (fun field => if name = field then value :: given field else given field) ∧
        (name ∉ r.fields.map Field.name → value.whole) ↔
      ∃ next, r.assign s name value = .ok next ∧ Fill next s' given

namespace Record.Tells

variable {r : Record σ} {Fill : σ → σ → (String → List Tree) → Prop} {s s' : σ}

theorem members_eq_ok_iff (h : r.Tells Fill) {members : Members} :
    Decoder.members r.assign s members = .ok s' ↔
      members.Ends (r.fields.map Field.name) ∧ Fill s s' fun name => members.valuesOf name := by
  fun_induction Decoder.members r.assign s members with
  | case1 s =>
    simp only [Except.ok.injEq, Members.Ends, Members.valuesOf, h.done, true_and]
    exact eq_comm
  | case2 => simp [Members.Ends]
  | case3 => simp [Members.Ends]
  | case4 s name value tail ih =>
    have hnext := h.next s s' name value fun field => tail.valuesOf field
    simp only [bind_eq_ok, ih, Members.Ends, Members.valuesOf]
    constructor
    · rintro ⟨next, hassign, htail, hfill⟩
      obtain ⟨hfill, hwhole⟩ := hnext.mpr ⟨next, hassign, hfill⟩
      exact ⟨⟨hwhole, htail⟩, hfill⟩
    · rintro ⟨⟨hwhole, htail⟩, hfill⟩
      obtain ⟨next, hassign, hfill⟩ := hnext.mp ⟨hfill, hwhole⟩
      exact ⟨next, hassign, htail, hfill⟩

/-- The items stand for fields of the record, so all their values are looked at. -/
theorem ofItems_eq_ok_iff (h : r.Tells Fill) {total length : Nat} {fields : List Field}
    {items : Items} (hfields : ∀ field ∈ fields, field ∈ r.fields) :
    r.ofItems total length fields s items = .ok s' ↔
      items.Ends fields ∧ Fill s s' fun name => items.valuesOf name fields := by
  fun_induction Record.ofItems r total length fields s items with
  | case1 => simp [Items.Ends]
  | case2 length s =>
    simp only [Except.ok.injEq, Items.Ends, Items.valuesOf, h.done, List.not_mem_nil, false_imp_iff,
      implies_true, true_and]
    exact eq_comm
  | case3 => simp [Items.Ends]
  | case4 length field fields s hlack ih =>
    have ih := ih fun other hother => hfields other (List.mem_cons_of_mem field hother)
    simp only [ih, Items.valuesOf_done]
    cases fields <;> simp [Items.Ends, hlack]
  | case5 length field fields s hlack =>
    simp [Items.Ends, hlack]
  | case6 length field fields s head tail ih =>
    have hrest : ∀ other ∈ fields, other ∈ r.fields := fun other hother =>
      hfields other (List.mem_cons_of_mem field hother)
    have ih := fun next => ih next hrest
    have hnext := h.next s s' field.name head fun name => tail.valuesOf name fields
    have hname := List.mem_map_of_mem (f := Field.name) (hfields field List.mem_cons_self)
    simp only [bind_eq_ok, ih, Items.Ends, Items.valuesOf]
    constructor
    · rintro ⟨next, hassign, htail, hfill⟩
      exact ⟨htail, (hnext.mpr ⟨next, hassign, hfill⟩).1⟩
    · rintro ⟨htail, hfill⟩
      obtain ⟨next, hassign, hfill⟩ := hnext.mp ⟨hfill, (absurd hname ·)⟩
      exact ⟨next, hassign, htail, hfill⟩

/-- A record is read exactly from what fits it and gives its fields what fills them. -/
theorem read_eq_ok_iff (h : r.Tells Fill) {t : Tree} :
    r.read s t = .ok s' ↔ r.Fits t ∧ Fill s s' fun name => r.given name t := by
  cases t with
  | object members => exact h.members_eq_ok_iff
  | array items => exact h.ofItems_eq_ok_iff fun _ hfield => hfield
  | _ => simp [Record.read, Record.Fits]

end Record.Tells

end Herald.Json
