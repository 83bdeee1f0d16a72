import Herald.Json.Decoding
import Herald.Json.Printer

/-!
What is printed reads back. A value without numbers is read from its text as the tree of that value,
with nothing left over, so a text decodes exactly as the value does that it was printed from.
-/

namespace Herald.Json

namespace Reader

/-! ### Strings -/

theorem digitValue_digit : ∀ n < 16, Text.Hex.digitValue (Text.Hex.digit n) = some n := by
  decide

/-- An escaped control character is read as itself. -/
theorem hexQuad_control {c : Char} (h : c.toNat < 0x20) :
    (hexQuad '0' '0' (Text.Hex.digit (c.toNat / 16)) (Text.Hex.digit (c.toNat % 16))).map
      Unit.ofQuad = some (.char c) := by
  have hhigh := digitValue_digit (c.toNat / 16) (by omega)
  have hlow := digitValue_digit (c.toNat % 16) (by omega)
  have hzero : Text.Hex.digitValue '0' = some 0 := rfl
  simp only [hexQuad, hzero, hhigh, hlow, Option.bind_eq_bind, Option.bind_some, Option.map_some,
    Option.some.injEq]
  have hnumber : ((0 * 16 + 0) * 16 + c.toNat / 16) * 16 + c.toNat % 16 = c.toNat := by omega
  rw [hnumber, Unit.ofQuad, if_neg (by omega), Char.ofNat_toNat]

theorem units_plain {c : Char} (hquote : c ≠ '"') (hslash : c ≠ '\\')
    (hcontrol : ¬c.toNat < 0x20) (rest : Input) :
    units (some c :: rest) = Unit.cons (some (.char c)) (units rest) := by
  have hkeep : (if c = '\\' ∨ c.toNat < 0x20 then none else some (Unit.char c)) = some (.char c) :=
    if_neg (not_or.mpr ⟨hslash, hcontrol⟩)
  rw [← hkeep, units.eq_def]
  split <;> simp_all

theorem units_escapeChar (c : Char) (rest : Input) :
    units ((escapeChar c).map some ++ rest) = Unit.cons (some (.char c)) (units rest) := by
  unfold escapeChar
  split
  case h_8 =>
    rename_i c hquote hslash _ _ _ _ _
    split
    · rename_i hcontrol
      rw [← hexQuad_control hcontrol]
      rfl
    · rename_i hcontrol
      exact units_plain hquote hslash hcontrol rest
  all_goals rfl

theorem units_escaped (cs : List Char) (rest : Input) :
    units ((cs.flatMap escapeChar).map some ++ some '"' :: rest) =
      some (cs.map Unit.char, rest) := by
  induction cs with
  | nil => rfl
  | cons c cs ih =>
    rw [List.flatMap_cons, List.map_append, List.append_assoc, units_escapeChar, ih]
    rfl

@[simp] theorem spell_chars (cs : List Char) : spell (cs.map Unit.char) = some cs := by
  induction cs with
  | nil => rfl
  | cons c cs ih =>
    rw [List.map_cons, spell, ih]
    rfl

theorem string_escaped (s : String) (rest : Input) :
    string ((s.toList.flatMap escapeChar).map some ++ some '"' :: rest) = some (some s, rest) := by
  rw [string, units_escaped]
  simp

end Reader

/-! ### Values -/

/-- What passes from the parts of arrays and objects to the whole holds of every value. -/
theorem induction {P : Json → Prop} (null : P .null) (bool : ∀ b, P (.bool b))
    (number : ∀ n, P (.number n)) (string : ∀ s, P (.string s))
    (array : ∀ vs, (∀ v ∈ vs, P v) → P (.array vs))
    (object : ∀ ms, (∀ m ∈ ms, P m.2) → P (.object ms)) (v : Json) : P v :=
  @Json.rec P (fun vs => ∀ v ∈ vs, P v) (fun ms => ∀ m ∈ ms, P m.2) (fun m => P m.2)
    null bool number string array object
    (List.forall_mem_nil P) (fun _ _ hv hvs => List.forall_mem_cons.mpr ⟨hv, hvs⟩)
    (List.forall_mem_nil _) (fun _ _ hm hms => List.forall_mem_cons.mpr ⟨hm, hms⟩)
    (fun _ _ hv => hv) v

mutual

/-- True if no number occurs in the value. -/
def numberless : Json → Bool
  | .number _ => false
  | .array items => itemsNumberless items
  | .object members => membersNumberless members
  | _ => true

@[inherit_doc numberless]
def itemsNumberless : List Json → Bool
  | [] => true
  | item :: rest => numberless item && itemsNumberless rest

@[inherit_doc numberless]
def membersNumberless : List (String × Json) → Bool
  | [] => true
  | (_, value) :: rest => numberless value && membersNumberless rest

end

theorem itemsNumberless_iff {items : List Json} :
    itemsNumberless items ↔ ∀ v ∈ items, v.numberless := by
  induction items with
  | nil => simp [itemsNumberless]
  | cons v rest ih => simp [itemsNumberless, ih]

theorem membersNumberless_iff {members : List (String × Json)} :
    membersNumberless members ↔ ∀ m ∈ members, m.2.numberless := by
  induction members with
  | nil => simp [membersNumberless]
  | cons m rest ih => simp [membersNumberless, ih]

@[simp] theorem commaSeparated_cons_cons (a b : List Char) (rest : List (List Char)) :
    commaSeparated (a :: b :: rest) = a ++ ',' :: commaSeparated (b :: rest) :=
  rfl

namespace Reader

open Input

/-- The text of a value begins with neither a blank nor a closing bracket. -/
theorem print_head {v : Json} (h : v.numberless) :
    ∃ c rest, v.print = c :: rest ∧ isBlank c = false ∧ c ≠ ']' := by
  cases v with
  | null => exact ⟨'n', "ull".toList, rfl, rfl, by decide⟩
  | bool b =>
    cases b with
    | true => exact ⟨'t', "rue".toList, rfl, rfl, by decide⟩
    | false => exact ⟨'f', "alse".toList, rfl, rfl, by decide⟩
  | number n => simp [numberless] at h
  | string s => exact ⟨'"', _, rfl, rfl, by decide⟩
  | array items => exact ⟨'[', _, rfl, rfl, by decide⟩
  | object members => exact ⟨'\x7b', _, rfl, rfl, by decide⟩

theorem skipBlanks_cons {c : Char} (h : isBlank c = false) (rest : Input) :
    skipBlanks (some c :: rest) = some c :: rest := by
  rw [skipBlanks, h]
  rfl

theorem skipBlanks_print {v : Json} (h : v.numberless) (rest : Input) :
    skipBlanks (v.print.map some ++ rest) = v.print.map some ++ rest := by
  obtain ⟨c, more, hprint, hblank, -⟩ := print_head h
  rw [hprint]
  exact skipBlanks_cons hblank _

theorem value_scalar {c : Char} (hblank : isBlank c = false) (harray : c ≠ '[')
    (hobject : c ≠ '\x7b') (steps : Nat) (rest : Input) :
    value (steps + 1) (some c :: rest) = scalar c rest := by
  rw [value, skipBlanks_cons hblank]
  split <;> simp_all

theorem value_array {steps : Nat} {input : Input}
    (h : ∀ rest, skipBlanks input ≠ some ']' :: rest) :
    value (steps + 1) (some '[' :: input) =
      (.array (items steps (skipBlanks input)).1, (items steps (skipBlanks input)).2) := by
  rw [value, skipBlanks_cons rfl]
  split
  case h_1 rest heq =>
    cases heq
    split
    · rename_i rest heq
      exact absurd heq (h rest)
    · rfl
  all_goals grind

theorem value_object {steps : Nat} {input : Input}
    (h : ∀ rest, skipBlanks input ≠ some '\x7d' :: rest) :
    value (steps + 1) (some '\x7b' :: input) =
      (.object (members steps (skipBlanks input)).1, (members steps (skipBlanks input)).2) := by
  rw [value, skipBlanks_cons rfl]
  split
  case h_2 rest heq =>
    cases heq
    split
    · rename_i rest heq
      exact absurd heq (h rest)
    · rfl
  all_goals grind

/-- A literal word is read letter by letter. -/
theorem length_print_pos {v : Json} (h : v.numberless) : 0 < v.print.length := by
  obtain ⟨c, rest, hprint, -⟩ := print_head h
  simp [hprint]

/-- The text of a member is read as its name, and goes on with its value. -/
theorem members_last {steps : Nat} {input rest : Input} {v : Tree} (name : String)
    (h : value steps input = (v, some (some '\x7d' :: rest))) :
    members (steps + 1) ((printString name).map some ++ some ':' :: input) =
      (.next (some name) v .done, some rest) := by
  have hstring := string_escaped name (some ':' :: input)
  simp only [printString, List.map_append, List.map_cons, List.map_nil, List.cons_append,
    List.append_assoc, List.nil_append]
  rw [members, skipBlanks_cons rfl]
  simp only [hstring, skipBlanks_cons (c := ':') rfl, h, skipBlanks_cons (c := '\x7d') rfl]

@[inherit_doc members_last]
theorem members_more {steps : Nat} {input rest : Input} {v : Tree} (name : String)
    (h : value steps input = (v, some (some ',' :: rest))) :
    members (steps + 1) ((printString name).map some ++ some ':' :: input) =
      (.next (some name) v (members steps rest).1, (members steps rest).2) := by
  have hstring := string_escaped name (some ':' :: input)
  simp only [printString, List.map_append, List.map_cons, List.map_nil, List.cons_append,
    List.append_assoc, List.nil_append]
  rw [members, skipBlanks_cons rfl]
  simp only [hstring, skipBlanks_cons (c := ':') rfl, h, skipBlanks_cons (c := ',') rfl]

/-- The text of members begins with the quote of the first name. -/
theorem members_head (m : String × Json) (ms : List (String × Json)) (more : Input) :
    ∃ tail, (commaSeparated (printMembers (m :: ms))).map some ++ more = some '"' :: tail := by
  cases ms with
  | nil => exact ⟨_, rfl⟩
  | cons n ns => exact ⟨_, rfl⟩

/-- The text of items begins as that of the first one does. -/
theorem items_head {w : Json} (hw : w.numberless) (ws : List Json) (more rest : Input) :
    (commaSeparated (printItems (w :: ws))).map some ++ more ≠ some ']' :: rest := by
  obtain ⟨c, tail, hprint, -, hbracket⟩ := print_head hw
  cases ws with
  | nil => simp [printItems, commaSeparated, hprint, hbracket]
  | cons x xs => simp [printItems, hprint, hbracket]

theorem skipBlanks_items {w : Json} (hw : w.numberless) (ws : List Json) (more : Input) :
    skipBlanks ((commaSeparated (printItems (w :: ws))).map some ++ more) =
      (commaSeparated (printItems (w :: ws))).map some ++ more := by
  cases ws with
  | nil => exact skipBlanks_print hw more
  | cons x xs =>
    simp only [printItems, commaSeparated_cons_cons, List.map_append, List.append_assoc]
    exact skipBlanks_print hw _

/-- The text of the value is read as its tree, up to its last character. -/
def Reads (v : Json) : Prop :=
  ∀ steps rest, 2 * v.print.length ≤ steps →
    value steps (v.print.map some ++ rest) = (v.toTree, some rest)

theorem items_print {w : Json} {ws : List Json} (hread : ∀ v ∈ w :: ws, Reads v) (steps : Nat)
    (h : 2 * (commaSeparated (printItems (w :: ws))).length < steps) (rest : Input) :
    items steps ((commaSeparated (printItems (w :: ws))).map some ++ some ']' :: rest) =
      (itemsOf (w :: ws), some rest) := by
  induction ws generalizing w steps with
  | nil =>
    obtain ⟨steps, rfl⟩ : ∃ n, steps = n + 1 := ⟨steps - 1, by omega⟩
    simp only [printItems, commaSeparated] at h ⊢
    rw [items, hread w (by simp) _ _ (by omega)]
    rfl
  | cons x xs ih =>
    obtain ⟨steps, rfl⟩ : ∃ n, steps = n + 1 := ⟨steps - 1, by omega⟩
    have hrest := ih (w := x) (fun v hv => hread v (List.mem_cons_of_mem w hv)) steps
    simp only [printItems, commaSeparated_cons_cons, List.length_append, List.length_cons,
      List.map_append, List.map_cons, List.append_assoc, List.cons_append] at h hrest ⊢
    rw [items, hread w (by simp) _ _ (by omega)]
    simp only [skipBlanks_cons (c := ',') rfl, hrest (by omega)]
    rfl

theorem members_print {m : String × Json} {ms : List (String × Json)}
    (hread : ∀ n ∈ m :: ms, Reads n.2) (steps : Nat)
    (h : 2 * (commaSeparated (printMembers (m :: ms))).length < steps) (rest : Input) :
    members steps ((commaSeparated (printMembers (m :: ms))).map some ++ some '\x7d' :: rest) =
      (membersOf (m :: ms), some rest) := by
  induction ms generalizing m steps with
  | nil =>
    obtain ⟨steps, rfl⟩ : ∃ n, steps = n + 1 := ⟨steps - 1, by omega⟩
    simp only [printMembers, commaSeparated, List.length_append, List.length_cons,
      List.map_append, List.map_cons, List.append_assoc, List.cons_append] at h ⊢
    exact members_last m.1 (hread m (by simp) _ _ (by omega))
  | cons n ns ih =>
    obtain ⟨steps, rfl⟩ : ∃ n, steps = n + 1 := ⟨steps - 1, by omega⟩
    have hrest := ih (m := n) (fun v hv => hread v (List.mem_cons_of_mem m hv)) steps
    simp only [printMembers, commaSeparated_cons_cons, List.length_append, List.length_cons,
      List.map_append, List.map_cons, List.append_assoc, List.cons_append] at h hrest ⊢
    rw [members_more m.1 (hread m (by simp) _ _ (by omega)), hrest (by omega)]
    rfl

theorem reads_array {vs : List Json} (hv : ∀ v ∈ vs, v.numberless) (hread : ∀ v ∈ vs, Reads v) :
    Reads (.array vs) := by
  intro steps rest h
  simp only [print, List.map_append, List.map_cons, List.map_nil, List.cons_append,
    List.append_assoc, List.nil_append, List.length_cons, List.length_append] at h ⊢
  obtain ⟨steps, rfl⟩ : ∃ n, steps = n + 1 := ⟨steps - 1, by omega⟩
  cases vs with
  | nil => rfl
  | cons w ws =>
    have hw := hv w (by simp)
    have hblank := skipBlanks_items hw ws (some ']' :: rest)
    have hitems := items_print hread steps (by omega) rest
    rw [value_array, hblank, hitems, toTree]
    rw [hblank]
    exact items_head hw ws _

theorem reads_object {ms : List (String × Json)} (hread : ∀ m ∈ ms, Reads m.2) :
    Reads (.object ms) := by
  intro steps rest h
  simp only [print, List.map_append, List.map_cons, List.map_nil, List.cons_append,
    List.append_assoc, List.nil_append, List.length_cons, List.length_append] at h ⊢
  obtain ⟨steps, rfl⟩ : ∃ n, steps = n + 1 := ⟨steps - 1, by omega⟩
  cases ms with
  | nil => rfl
  | cons m ms =>
    obtain ⟨tail, hhead⟩ := members_head m ms (some '\x7d' :: rest)
    have hmembers := members_print hread steps (by omega) rest
    rw [hhead] at hmembers ⊢
    have hblank := skipBlanks_cons (c := '"') rfl tail
    rw [value_object, hblank, hmembers, toTree]
    simp [hblank]

theorem reads_string (s : String) : Reads (.string s) := by
  intro steps rest h
  have hstring := string_escaped s rest
  simp only [print, printString, List.map_append, List.map_cons, List.map_nil, List.cons_append,
    List.append_assoc, List.nil_append, List.length_cons, toTree] at h ⊢
  obtain ⟨steps, rfl⟩ : ∃ n, steps = n + 1 := ⟨steps - 1, by omega⟩
  rw [value_scalar rfl (by decide) (by decide)]
  simp only [scalar, hstring]

theorem reads_of_numberless {v : Json} (hv : v.numberless) : Reads v := by
  induction v using Json.induction with
  | null =>
    intro steps rest h
    have hpos := length_print_pos (v := .null) rfl
    obtain ⟨steps, rfl⟩ : ∃ n, steps = n + 1 := ⟨steps - 1, by omega⟩
    exact value_scalar rfl (by decide) (by decide) steps _
  | bool b =>
    intro steps rest h
    have hpos := length_print_pos (v := .bool b) rfl
    obtain ⟨steps, rfl⟩ : ∃ n, steps = n + 1 := ⟨steps - 1, by omega⟩
    cases b with
    | true => exact value_scalar rfl (by decide) (by decide) steps _
    | false => exact value_scalar rfl (by decide) (by decide) steps _
  | number n => simp [numberless] at hv
  | string s => exact reads_string s
  | array vs ih =>
    have hvs := itemsNumberless_iff.mp hv
    exact reads_array hvs fun v hmem => ih v hmem (hvs v hmem)
  | object ms ih =>
    have hms := membersNumberless_iff.mp hv
    exact reads_object fun m hmem => ih m hmem (hms m hmem)

end Reader

/-- The text of a value without numbers is read as that value. -/
theorem read_text {v : Json} (hv : v.numberless) :
    Document.read (.ofString v.text) = ⟨v.toTree, true⟩ := by
  have hvalue := Reader.reads_of_numberless hv (2 * v.print.length + 2) [] (by omega)
  rw [List.append_nil] at hvalue
  simp only [Document.read, Input.ofString, text, String.toList_ofList, List.length_map, hvalue]
  rfl

/-- A text decodes as the value does that it was printed from. -/
theorem decodeText_text {α : Type} {decode : Decoder α} {v : Json} (hv : v.numberless) {a : α}
    (h : decode v.toTree = .ok a) : decodeText decode v.text = .ok a := by
  simp only [decodeText, decodeInput, read_text hv, h, if_true]

end Herald.Json
