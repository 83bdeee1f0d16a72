import Herald.Text.Cut

/-!
Words dropped from the beginning of a text, and texts cut into lines. What is dropped is the word as
often as it stands there, and lines that do not hold the separator come back as they are.
-/

namespace Herald.Text

variable {word s : List Char} {sep : Char}

theorem dropRepeated_append (h : word ≠ []) (s : List Char) :
    dropRepeated word (word ++ s) = dropRepeated word s := by
  rw [dropRepeated, dif_pos ⟨h, List.prefix_append word s⟩, List.drop_left]

theorem dropRepeated_of_not_prefix (h : ¬word <+: s) : dropRepeated word s = s := by
  rw [dropRepeated, dif_neg fun hword => h hword.2]

@[simp] theorem length_split (sep : Char) (s : List Char) : (split sep s).length = s.count sep + 1 := by
  induction s with
  | nil => rfl
  | cons c rest ih =>
    unfold split
    split
    · rename_i hc
      rw [hc, List.length_cons, ih, List.count_cons_self]
    · rename_i hc
      rw [List.count_cons_of_ne hc, ← ih]
      -- What comes after a character is never cut into nothing.
      cases hrest : split sep rest with
      | nil => simp [hrest] at ih
      | cons => rfl

theorem split_append_cons {line : List Char} (h : sep ∉ line) (s : List Char) :
    split sep (line ++ sep :: s) = line :: split sep s := by
  induction line with
  | nil => rw [List.nil_append, split, if_pos rfl]
  | cons c rest ih =>
    obtain ⟨hc, hrest⟩ := not_or.mp (mt List.mem_cons.mpr h)
    rw [List.cons_append, split, if_neg (Ne.symm hc), ih hrest]

/-- Lines that each end with the separator are cut off one by one. -/
theorem split_flatMap_append {lines : List (List Char)} (h : ∀ line ∈ lines, sep ∉ line)
    (s : List Char) : split sep (lines.flatMap (· ++ [sep]) ++ s) = lines ++ split sep s := by
  induction lines with
  | nil => rfl
  | cons line rest ih =>
    obtain ⟨hline, hrest⟩ := List.forall_mem_cons.mp h
    rw [List.flatMap_cons, List.append_assoc, List.append_assoc, List.singleton_append,
      split_append_cons hline, ih hrest, List.cons_append]

end Herald.Text
