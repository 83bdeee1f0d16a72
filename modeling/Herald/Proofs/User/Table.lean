import Herald.Proofs.Json.Relaxed
import Herald.Proofs.User.Codec
import Herald.Proofs.User.Directory

/-!
A table whose rows store the users of a directory answers as the directory does, as long as keys are
unique, and is changed as the directory is.
-/

namespace Herald.Table

open Json

/-- The table that stores the users of a directory, row by row. -/
def ofDirectory (users : Directory) : Table :=
  users.map Row.ofUser

/-! ### Columns -/

theorem columnTexts_identifiers (asked : Option String → Bool) (u : User) :
    columnTexts asked (Row.ofUser u).identifiers =
      .ok (u.identifiers.toList.map fun id => (some id.key.text, id.value)) := by
  have hread := Relaxed.read?_members (u.identifiers.toList.map fun id => (id.key.text, id.value))
  simp only [List.map_map] at hread
  have hcolumn : (Row.ofUser u).identifiers =
      (Json.object (u.identifiers.toList.map
        ((fun m => (m.1, .string m.2)) ∘ fun id => (id.key.text, id.value)))).text := rfl
  rw [columnTexts, hcolumn, hread]
  simp only [Relaxed.Value.parts, List.map_map, Function.comp_def, Relaxed.stringText_glyphs]
  have hvalued : ((u.identifiers.toList.map fun id => (some id.key.text,
      Relaxed.Value.string (Relaxed.glyphs id.value))).all
        fun p => p.2.hasValue || !asked p.1) = true := by
    simp [Relaxed.Value.hasValue]
  rw [if_pos hvalued, List.filterMap_map]
  simp [Function.comp_def, Relaxed.Value.comparable?]

theorem columnTexts_emails (asked : Option String → Bool) (u : User) :
    columnTexts asked (Row.ofUser u).emails = .ok (u.emails.map fun e => (none, e)) := by
  have hcolumn : (Row.ofUser u).emails = (Json.array (u.emails.map .string)).text := rfl
  rw [columnTexts, hcolumn, Relaxed.read?_strings]
  simp only [Relaxed.Value.parts, List.map_map, Function.comp_def]
  have hvalued : ((u.emails.map fun e => ((none : Option String),
      Relaxed.Value.string (Relaxed.glyphs e))).all
        fun p => p.2.hasValue || !asked p.1) = true := by
    simp [Relaxed.Value.hasValue]
  rw [if_pos hvalued, List.filterMap_map]
  simp [Function.comp_def, Relaxed.Value.comparable?]

/-! ### Searches -/

theorem search_ofDirectory {column : Row → String} {asked : Option String → Bool} {text : String}
    {texts : User → List (Option String × String)}
    (h : ∀ u, columnTexts asked (column (.ofUser u)) = .ok (texts u)) (users : Directory) :
    search column asked text (ofDirectory users) =
      .ok (ofDirectory (users.filter fun u => (texts u).any fun t => asked t.1 && t.2 == text)) := by
  induction users with
  | nil => rfl
  | cons u users ih =>
    change (do
      let texts ← columnTexts asked (column (.ofUser u))
      let more ← search column asked text (ofDirectory users)
      .ok (if texts.any fun t => asked t.1 && t.2 == text then Row.ofUser u :: more else more)) = _
    rw [h, ih, List.filter_cons]
    split
    · rename_i hfound
      exact congrArg Except.ok (if_pos hfound)
    · rename_i hfound
      exact congrArg Except.ok (if_neg hfound)

@[simp] theorem mapM_user (users : List User) : (ofDirectory users).mapM Row.user = .ok users := by
  induction users with
  | nil => rfl
  | cons u users ih =>
    rw [ofDirectory, List.map_cons, List.mapM_cons, Row.user_ofUser]
    rw [ofDirectory] at ih
    rw [ih]
    rfl

/-- A set holds an identifier if some member of its object has the name and the text of it. -/
theorem any_member_eq_holds (s : IdentifierSet) (id : Identifier) :
    ((s.toList.map fun id => (some id.key.text, id.value)).any fun t =>
      t.1 == some id.key.text && t.2 == id.value) = s.holds id := by
  rw [Bool.eq_iff_iff, IdentifierSet.holds_iff, List.any_map, List.any_eq_true]
  constructor
  · rintro ⟨other, hother, hsame⟩
    simp only [Function.comp_apply, Bool.and_eq_true, beq_iff_eq, Option.some.injEq] at hsame
    obtain ⟨key, value, hvalue⟩ := id
    obtain ⟨key', value', hvalue'⟩ := other
    obtain rfl := Identifier.Key.text_injective hsame.1
    obtain rfl : value' = value := hsame.2
    exact hother
  · intro hid
    exact ⟨id, hid, by simp⟩

@[simp] theorem holders_ofDirectory (users : Directory) (id : Identifier) :
    (ofDirectory users).holders id = .ok (users.holders id) := by
  rw [holders, search_ofDirectory (columnTexts_identifiers _)]
  simp only [any_member_eq_holds]
  exact mapM_user _

@[simp] theorem addressees_ofDirectory (users : Directory) (address : String) :
    (ofDirectory users).addressees address = .ok (users.addressees address) := by
  have hany : ∀ u : User, ((u.emails.map fun e => ((none : Option String), e)).any fun t =>
      true && t.2 == address) = u.emails.contains address := by
    intro u
    rw [List.any_map, List.contains_eq_any_beq]
    refine congrArg u.emails.any (funext fun e => ?_)
    simp [Bool.beq_comm]
  rw [addressees, search_ofDirectory (columnTexts_emails _)]
  simp only [hany]
  exact mapM_user _

/-! ### Look-ups and updates -/

@[simp] theorem resolve_ofDirectory (users : Directory) (id : Identifier) :
    (ofDirectory users).resolve id = users.resolve id := by
  rw [resolve, holders_ofDirectory, Directory.resolve]
  change (if (users.holders id).isEmpty && id.key.kind == Identifier.emailKind then _ else _) = _
  rw [addressees_ofDirectory]
  rfl

@[simp] theorem get_ofDirectory (users : Directory) (key : String) :
    (ofDirectory users).get key = users.get key := by
  have hfind : ((ofDirectory users).find? fun r => r.key == key) =
      (users.find? fun u => u.key == key).map Row.ofUser := List.find?_map
  rw [get, Directory.get, hfind]
  cases users.find? fun u => u.key == key with
  | none => rfl
  | some u => exact Row.user_ofUser u

@[simp] theorem hasKey_ofDirectory (users : Directory) (key : String) :
    (ofDirectory users).hasKey key = users.hasKey key := by
  rw [hasKey, ofDirectory, List.any_map]
  rfl

theorem update_ofDirectory (users : Directory) (key : String) {change : Row → Row}
    (change' : User → User) (h : ∀ u, change (.ofUser u) = .ofUser (change' u)) :
    (ofDirectory users).update key change = ofDirectory (users.update key change') := by
  rw [update, ofDirectory, ofDirectory, Directory.update, List.map_map, List.map_map]
  apply List.map_congr_left
  intro u _
  simp only [Function.comp_apply, apply_ite Row.ofUser, h]
  rfl

theorem setPreferences_ofDirectory {users : Directory} (h : users.Unique) (key : String)
    (preferences : PreferenceMap) :
    (ofDirectory users).setPreferences key preferences =
      (users.setPreferences key preferences).map ofDirectory := by
  rw [setPreferences, Directory.setPreferences_eq h, hasKey_ofDirectory,
    update_ofDirectory users key (fun u => { u with preferences }) fun _ => rfl]
  split <;> rfl

theorem put_ofDirectory {users : Directory} (h : users.Unique) (user : User) :
    (ofDirectory users).put user = ofDirectory (users.put user) := by
  rw [put, Directory.put_eq h, hasKey_ofDirectory,
    update_ofDirectory users user.key (fun _ => user) fun _ => rfl]
  split
  · rfl
  · simp [ofDirectory]

end Herald.Table
