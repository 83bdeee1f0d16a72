/-!
Cutting text: at the first occurrence of a character or at all of them, and after all repetitions of a
word at the beginning. The parts before and after a character make up the text again with the
character between them, and the first part does not hold it.
-/

namespace Herald.Text

def cutList (sep : Char) : List Char → Option (List Char × List Char)
  | [] => none
  | c :: rest =>
    if c = sep then some ([], rest)
    else (cutList sep rest).map fun (before, after) => (c :: before, after)

def cut (sep : Char) (s : String) : Option (String × String) :=
  (cutList sep s.toList).map fun (before, after) => (String.ofList before, String.ofList after)

theorem cutList_append {sep : Char} {before : List Char} (h : sep ∉ before) (after : List Char) :
    cutList sep (before ++ sep :: after) = some (before, after) := by
  induction before with
  | nil => simp [cutList]
  | cons c rest ih =>
    obtain ⟨hc, hrest⟩ := not_or.mp (mt List.mem_cons.mpr h)
    simp [cutList, Ne.symm hc, ih hrest]

theorem cutList_eq_none {sep : Char} {s : List Char} (h : sep ∉ s) : cutList sep s = none := by
  induction s with
  | nil => rfl
  | cons c rest ih =>
    obtain ⟨hc, hrest⟩ := not_or.mp (mt List.mem_cons.mpr h)
    simp [cutList, Ne.symm hc, ih hrest]

theorem eq_append_of_cutList {sep : Char} {s before after : List Char}
    (h : cutList sep s = some (before, after)) : s = before ++ sep :: after ∧ sep ∉ before := by
  induction s generalizing before with
  | nil => cases h
  | cons c rest ih =>
    unfold cutList at h
    split at h
    · rename_i hc
      cases h
      exact ⟨by simp [hc], List.not_mem_nil⟩
    · rename_i hc
      obtain ⟨⟨first, last⟩, hrest, heq⟩ := Option.map_eq_some_iff.mp h
      cases heq
      obtain ⟨hsplit, hnot⟩ := ih hrest
      exact ⟨by rw [hsplit]; rfl, by simp [Ne.symm hc, hnot]⟩

/-- The text is cut at the first occurrence. -/
theorem cut_eq_some_iff {sep : Char} {s before after : String} :
    cut sep s = some (before, after) ↔
      s.toList = before.toList ++ sep :: after.toList ∧ sep ∉ before.toList := by
  unfold cut
  constructor
  · intro h
    obtain ⟨⟨first, last⟩, hcut, heq⟩ := Option.map_eq_some_iff.mp h
    cases heq
    simpa using eq_append_of_cutList hcut
  · rintro ⟨hsplit, hnot⟩
    simp [hsplit, cutList_append hnot]

theorem cut_eq_none_iff {sep : Char} {s : String} : cut sep s = none ↔ sep ∉ s.toList := by
  unfold cut
  rw [Option.map_eq_none_iff]
  refine ⟨fun hnone hsep => ?_, cutList_eq_none⟩
  obtain ⟨before, after, hsplit, hnot⟩ := List.eq_append_cons_of_mem hsep
  rw [hsplit, cutList_append hnot] at hnone
  cases hnone

def split (sep : Char) : List Char → List (List Char)
  | [] => [[]]
  | c :: rest =>
    if c = sep then [] :: split sep rest
    else
      match split sep rest with
      | [] => [[c]]
      | part :: parts => (c :: part) :: parts

theorem length_sub_lt {word s : List Char} (h : word ≠ [] ∧ word <+: s) :
    s.length - word.length < s.length := by
  have := List.length_pos_iff.mpr h.1
  have := h.2.length_le
  omega

def dropRepeated (word s : List Char) : List Char :=
  if h : word ≠ [] ∧ word <+: s then
    have := length_sub_lt h
    dropRepeated word (s.drop word.length)
  else s
termination_by s.length

end Herald.Text
