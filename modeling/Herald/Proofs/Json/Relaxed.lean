import Herald.Json.Relaxed.Reader
import Herald.Proofs.Json.Text
import Mathlib.Data.List.TakeWhile

/-!
Strict JSON is read as hand-written JSON, too. Arrays and objects of strings, as they are printed, have
the parts that they were made of, and these stand for the same texts.
-/

namespace Herald.Json

/-! ### Characters of printed text -/

theorem nul_notMem_escapeChar (c : Char) : '\x00' ∉ escapeChar c := by
  have hdigit : ∀ n < 16, '\x00' ≠ Text.Hex.digit n := by decide
  unfold escapeChar
  split
  case h_8 =>
    split
    · have hhigh := hdigit (c.toNat / 16) (by omega)
      have hlow := hdigit (c.toNat % 16) (by omega)
      simp [escapeControl, hhigh, hlow]
    · rename_i hcontrol
      rintro hmem
      obtain rfl := List.mem_singleton.mp hmem
      exact hcontrol (by decide)
  all_goals decide

theorem nul_notMem_printString (s : String) : '\x00' ∉ printString s := by
  simp [printString, nul_notMem_escapeChar]

theorem mem_commaSeparated {c : Char} {items : List (List Char)} (h : c ∈ commaSeparated items) :
    c = ',' ∨ ∃ item ∈ items, c ∈ item := by
  fun_induction commaSeparated items with
  | case1 => cases h
  | case2 item => exact Or.inr ⟨item, by simp, h⟩
  | case3 item rest _ ih =>
    rcases List.mem_append.mp h with h | h
    · exact Or.inr ⟨item, by simp, h⟩
    · rcases List.mem_cons.mp h with h | h
      · exact Or.inl h
      · obtain hcomma | ⟨item, hitem, hc⟩ := ih h
        · exact Or.inl hcomma
        · exact Or.inr ⟨item, List.mem_cons_of_mem _ hitem, hc⟩

theorem mem_printItems {item : List Char} {vs : List Json} (h : item ∈ printItems vs) :
    ∃ v ∈ vs, item = v.print := by
  induction vs with
  | nil => cases h
  | cons v vs ih =>
    rcases List.mem_cons.mp h with h | h
    · exact ⟨v, by simp, h⟩
    · obtain ⟨w, hw, hitem⟩ := ih h
      exact ⟨w, List.mem_cons_of_mem v hw, hitem⟩

theorem mem_printMembers {item : List Char} {ms : List (String × Json)}
    (h : item ∈ printMembers ms) : ∃ m ∈ ms, item = printString m.1 ++ ':' :: m.2.print := by
  induction ms with
  | nil => cases h
  | cons m ms ih =>
    rcases List.mem_cons.mp h with h | h
    · exact ⟨m, by simp, h⟩
    · obtain ⟨n, hn, hitem⟩ := ih h
      exact ⟨n, List.mem_cons_of_mem m hn, hitem⟩

/-- No null character stands in printed text, so all of it is read. -/
theorem nul_notMem_print {v : Json} (hv : v.numberless) : '\x00' ∉ v.print := by
  induction v using Json.induction with
  | null => decide
  | bool b => cases b <;> decide
  | number n => simp [numberless] at hv
  | string s => exact nul_notMem_printString s
  | array vs ih =>
    have hvs := itemsNumberless_iff.mp hv
    have hitems : '\x00' ∉ commaSeparated (printItems vs) := by
      intro hmem
      obtain hcomma | ⟨item, hitem, hmem⟩ := mem_commaSeparated hmem
      · exact absurd hcomma (by decide)
      · obtain ⟨v, hv, rfl⟩ := mem_printItems hitem
        exact ih v hv (hvs v hv) hmem
    simp [print, hitems]
  | object ms ih =>
    have hms := membersNumberless_iff.mp hv
    have hmembers : '\x00' ∉ commaSeparated (printMembers ms) := by
      intro hmem
      obtain hcomma | ⟨item, hitem, hmem⟩ := mem_commaSeparated hmem
      · exact absurd hcomma (by decide)
      · obtain ⟨m, hm, rfl⟩ := mem_printMembers hitem
        have hname := nul_notMem_printString m.1
        have hvalue := ih m hm (hms m hm)
        simp [hname, hvalue] at hmem
    simp [print, hmembers]

namespace Relaxed

/-! ### Strings -/

/-- The sign as which an escaped character is read. -/
def glyph (c : Char) : Glyph :=
  match c with
  | '"' => .escaped '"'
  | '\\' => .escaped '\\'
  | '\x08' => .escaped 'b'
  | '\x0c' => .escaped 'f'
  | '\n' => .escaped 'n'
  | '\r' => .escaped 'r'
  | '\t' => .escaped 't'
  | c =>
    if c.toNat < 0x20 then
      .quad '0' '0' (Text.Hex.digit (c.toNat / 16)) (Text.Hex.digit (c.toNat % 16))
    else .plain c

/-- The signs of a string as it is printed. -/
def glyphs (s : String) : List Glyph :=
  s.toList.map glyph

theorem isHex_digit : ∀ n < 16, isHex (Text.Hex.digit n) := by
  decide

@[simp] theorem unit?_glyph (c : Char) : (glyph c).unit? = some (.char c) := by
  unfold glyph
  split
  case h_8 =>
    split
    · rename_i hcontrol
      exact Reader.hexQuad_control hcontrol
    · rfl
  all_goals rfl

@[simp] theorem stringText_glyphs (s : String) : stringText (glyphs s) = some s := by
  have hspell : ∀ cs : List Char, spell (cs.map glyph) = some cs := by
    intro cs
    induction cs with
    | nil => rfl
    | cons c cs ih =>
      rw [List.map_cons, spell, unit?_glyph]
      simp [ih]
  rw [stringText, glyphs, hspell]
  simp

theorem stringBody_plain {c : Char} (hquote : c ≠ '"') (hslash : c ≠ '\\') (rest : List Char) :
    stringBody '"' (c :: rest) = Glyph.cons (some (.plain c)) (stringBody '"' rest) := by
  rw [stringBody.eq_def]
  split <;> simp_all

theorem stringBody_escapeChar (c : Char) (rest : List Char) :
    stringBody '"' (escapeChar c ++ rest) = Glyph.cons (some (glyph c)) (stringBody '"' rest) := by
  unfold escapeChar
  split
  case h_8 =>
    rename_i hquote hslash hb hf hn hr ht
    rw [glyph.eq_8 c hquote hslash hb hf hn hr ht]
    split
    · have hhigh := isHex_digit (c.toNat / 16) (by omega)
      have hlow := isHex_digit (c.toNat % 16) (by omega)
      have hzero : isHex '0' := rfl
      simp [escapeControl, stringBody, hhigh, hlow, hzero]
    · exact stringBody_plain hquote hslash rest
  all_goals rfl

theorem stringBody_escaped (s : String) (rest : List Char) :
    stringBody '"' (s.toList.flatMap escapeChar ++ '"' :: rest) = some (glyphs s, rest) := by
  rw [glyphs]
  induction s.toList with
  | nil => simp [stringBody]
  | cons c cs ih =>
    rw [List.flatMap_cons, List.append_assoc, stringBody_escapeChar, ih]
    rfl

/-! ### Values -/

theorem skipBlanks_cons {c : Char} (hslash : c ≠ '/') (hblank : isBlank c = false)
    (rest : List Char) : skipBlanks (c :: rest) = c :: rest := by
  rw [skipBlanks.eq_def]
  split <;> simp_all

/-- The first character of a string, and what may follow a value, is no blank. -/
theorem skipBlanks_mark {c : Char} (h : c = '"' ∨ c = ':' ∨ c = ',' ∨ c = ']' ∨ c = '\x7d')
    (rest : List Char) : skipBlanks (c :: rest) = c :: rest := by
  obtain rfl | rfl | rfl | rfl | rfl := h <;> exact skipBlanks_cons (by decide) (by decide) rest

theorem value_string (steps room : Nat) (s : String) (rest : List Char) :
    value (steps + 1) room (printString s ++ rest) = some (.string (glyphs s), rest) := by
  have hbody := stringBody_escaped s rest
  simp only [printString, List.cons_append, List.append_assoc, List.nil_append]
  unfold value
  rw [skipBlanks_mark (by simp)]
  simp [hbody]

@[simp] theorem skipBlanks_printString (s : String) (rest : List Char) :
    skipBlanks (printString s ++ rest) = printString s ++ rest :=
  skipBlanks_mark (by simp) _

theorem items_last (steps room : Nat) (s : String) (rest : List Char) :
    items (steps + 2) room (printString s ++ ']' :: rest) =
      some ([.string (glyphs s)], rest) := by
  have hvalue := value_string steps room s (']' :: rest)
  rw [items, skipBlanks_printString]
  split
  · rename_i heq
    simp [printString] at heq
  · simp only [hvalue, skipBlanks_mark (c := ']') (by simp)]

theorem items_more (steps room : Nat) (s : String) (rest : List Char) :
    items (steps + 2) room (printString s ++ ',' :: rest) =
      (items (steps + 1) room rest).map fun p => (.string (glyphs s) :: p.1, p.2) := by
  have hvalue := value_string steps room s (',' :: rest)
  rw [items, skipBlanks_printString]
  split
  · rename_i heq
    simp [printString] at heq
  · simp only [hvalue, skipBlanks_mark (c := ',') (by simp)]

@[simp] theorem name?_printString (name : String) (rest : List Char) :
    name? (printString name ++ rest) = some (glyphs name, rest) := by
  have hbody := stringBody_escaped name rest
  simp only [printString, List.cons_append, List.append_assoc, List.nil_append]
  exact hbody

theorem members_last (steps room : Nat) (name s : String) (rest : List Char) :
    members (steps + 2) room (printString name ++ ':' :: (printString s ++ '\x7d' :: rest)) =
      some ([(glyphs name, .string (glyphs s))], rest) := by
  have hvalue := value_string steps room s ('\x7d' :: rest)
  rw [members, skipBlanks_printString]
  split
  · rename_i heq
    simp [printString] at heq
  · simp only [name?_printString, skipBlanks_mark (c := ':') (by simp), hvalue,
      skipBlanks_mark (c := '\x7d') (by simp)]

theorem members_more (steps room : Nat) (name s : String) (rest : List Char) :
    members (steps + 2) room (printString name ++ ':' :: (printString s ++ ',' :: rest)) =
      (members (steps + 1) room rest).map fun p =>
        ((glyphs name, .string (glyphs s)) :: p.1, p.2) := by
  have hvalue := value_string steps room s (',' :: rest)
  rw [members, skipBlanks_printString]
  split
  · rename_i heq
    simp [printString] at heq
  · simp only [name?_printString, skipBlanks_mark (c := ':') (by simp), hvalue,
      skipBlanks_mark (c := ',') (by simp)]

theorem two_le_of_printString {s : String} {steps : Nat} {text : List Char}
    (h : 2 * (printString s ++ text).length < steps) : ∃ n, steps = n + 2 := by
  simp only [printString, List.cons_append, List.length_cons, List.length_append] at h
  exact ⟨steps - 2, by omega⟩

theorem items_strings (ss : List String) (steps room : Nat) (rest : List Char)
    (h : 2 * (commaSeparated (ss.map printString)).length < steps) :
    items steps room (commaSeparated (ss.map printString) ++ ']' :: rest) =
      some (ss.map fun s => .string (glyphs s), rest) := by
  induction ss generalizing steps with
  | nil =>
    obtain ⟨steps, rfl⟩ : ∃ n, steps = n + 1 := ⟨steps - 1, by omega⟩
    simp only [List.map_nil, commaSeparated, List.nil_append]
    rw [items, skipBlanks_mark (by simp)]
    rfl
  | cons s ss ih =>
    cases ss with
    | nil =>
      have hone : 2 * (printString s ++ []).length < steps := by simpa [commaSeparated] using h
      obtain ⟨steps, rfl⟩ := two_le_of_printString hone
      simp only [List.map_cons, List.map_nil, commaSeparated]
      exact items_last steps room s rest
    | cons t ts =>
      simp only [List.map_cons, commaSeparated_cons_cons, List.append_assoc, List.cons_append]
        at h ih ⊢
      obtain ⟨steps, rfl⟩ := two_le_of_printString h
      rw [items_more]
      simp only [List.length_append, List.length_cons] at h
      have hrest := ih (steps + 1) (by omega)
      simp only [hrest, Option.map_some]

theorem members_strings (ms : List (String × String)) (steps room : Nat) (rest : List Char)
    (h : 2 * (commaSeparated (ms.map fun m => printString m.1 ++ ':' :: printString m.2)).length
      < steps) :
    members steps room
        (commaSeparated (ms.map fun m => printString m.1 ++ ':' :: printString m.2) ++
          '\x7d' :: rest) =
      some (ms.map fun m => (glyphs m.1, .string (glyphs m.2)), rest) := by
  induction ms generalizing steps with
  | nil =>
    obtain ⟨steps, rfl⟩ : ∃ n, steps = n + 1 := ⟨steps - 1, by omega⟩
    simp only [List.map_nil, commaSeparated, List.nil_append]
    rw [members, skipBlanks_mark (by simp)]
    rfl
  | cons m ms ih =>
    cases ms with
    | nil =>
      simp only [List.map_cons, List.map_nil, commaSeparated, List.append_assoc, List.cons_append]
        at h ⊢
      obtain ⟨steps, rfl⟩ := two_le_of_printString h
      exact members_last steps room m.1 m.2 rest
    | cons n ns =>
      simp only [List.map_cons, commaSeparated_cons_cons, List.append_assoc, List.cons_append]
        at h ih ⊢
      obtain ⟨steps, rfl⟩ := two_le_of_printString h
      rw [members_more]
      simp only [List.length_append, List.length_cons] at h
      have hrest := ih (steps + 1) (by omega)
      simp only [hrest, Option.map_some]

/-- Printed text is read to its end. -/
theorem read?_text {v : Json} (hv : v.numberless) {w : Value}
    (h : value (2 * v.print.length + 2) deepest v.print = some (w, [])) :
    read? v.text = some w := by
  have hall : v.print.takeWhile (· != '\x00') = v.print := by
    refine List.takeWhile_eq_self_iff.mpr fun c hc => bne_iff_ne.mpr ?_
    rintro rfl
    exact nul_notMem_print hv hc
  have hempty : skipBlanks [] = [] := by rw [skipBlanks.eq_def]
  unfold read?
  simp only [text, String.toList_ofList, hall]
  rw [h]
  simp [hempty]

theorem value_array {steps room : Nat} {input : List Char} :
    value (steps + 1) (room + 1) ('[' :: input) =
      (items steps room input).map fun (vs, rest) => (.array vs, rest) := by
  unfold value
  rw [skipBlanks_cons (by decide) (by decide)]
  rfl

theorem value_object {steps room : Nat} {input : List Char} :
    value (steps + 1) (room + 1) ('\x7b' :: input) =
      (members steps room input).map fun (ms, rest) => (.object ms, rest) := by
  unfold value
  rw [skipBlanks_cons (by decide) (by decide)]
  rfl

theorem read?_strings (ss : List String) :
    read? (Json.array (ss.map .string)).text =
      some (.array (ss.map fun s => .string (glyphs s))) := by
  have hprint : Json.printItems (ss.map .string) = ss.map printString := by
    induction ss with
    | nil => rfl
    | cons s ss ih => exact congrArg (printString s :: ·) ih
  have hnumberless : (Json.array (ss.map .string)).numberless := by
    apply itemsNumberless_iff.mpr
    intro v hv
    obtain ⟨s, -, rfl⟩ := List.mem_map.mp hv
    rfl
  refine read?_text hnumberless ?_
  simp only [print, hprint, List.cons_append]
  rw [deepest, value_array, items_strings]
  · rfl
  · simp only [List.length_cons, List.length_append]
    omega

theorem read?_members (ms : List (String × String)) :
    read? (Json.object (ms.map fun m => (m.1, .string m.2))).text =
      some (.object (ms.map fun m => (glyphs m.1, .string (glyphs m.2)))) := by
  have hprint : Json.printMembers (ms.map fun m => (m.1, .string m.2)) =
      ms.map fun m => printString m.1 ++ ':' :: printString m.2 := by
    induction ms with
    | nil => rfl
    | cons m ms ih => exact congrArg ((printString m.1 ++ ':' :: printString m.2) :: ·) ih
  have hnumberless : (Json.object (ms.map fun m => (m.1, .string m.2))).numberless := by
    apply membersNumberless_iff.mpr
    intro member hmember
    obtain ⟨m, -, rfl⟩ := List.mem_map.mp hmember
    rfl
  refine read?_text hnumberless ?_
  simp only [print, hprint, List.cons_append]
  rw [deepest, value_object, members_strings]
  · rfl
  · simp only [List.length_cons, List.length_append]
    omega

end Relaxed

end Herald.Json
