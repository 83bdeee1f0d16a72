import Herald.Timestamp

/-!
The written form of points in time. Within the years that are written with four digits, whatever can be
read reads back from its written form, leap seconds and all.
-/

namespace Herald.Timestamp

open Fields

variable {width n : Nat}

/-! ### Digits -/

theorem isDigit_of_mem_padded {c : Char} (h : c ∈ padded width n) : c.isDigit := by
  obtain h | h := List.mem_append.mp h
  · rw [List.eq_of_mem_replicate h]
    rfl
  · exact Nat.isDigit_of_mem_toDigits (by decide) (by decide) h

theorem length_padded (hwidth : 0 < width) (h : n < Nat.pow 10 width) : (padded width n).length = width := by
  have hle := (Nat.length_toDigits_le_iff (by decide) hwidth).mpr h
  unfold padded
  simp only [List.length_append, List.length_replicate]
  omega

theorem padded_eq_cons (width n : Nat) : ∃ c cs, padded width n = c :: cs ∧ c.isDigit := by
  cases h : padded width n with
  | nil => exact absurd (List.append_eq_nil_iff.mp h).2 Nat.toDigits_ne_nil
  | cons c cs =>
    have hmem : c ∈ padded width n := h ▸ List.mem_cons_self
    exact ⟨c, cs, rfl, isDigit_of_mem_padded hmem⟩

@[simp] theorem numberOf_padded (width n : Nat) : numberOf (padded width n) = n := by
  have happend : numberOf (padded width n) = Nat.ofDigitChars 10 (Nat.toDigits 10 n)
      (Nat.ofDigitChars 10 (List.replicate (width - (Nat.toDigits 10 n).length) '0') 0) :=
    Nat.ofDigitChars_append 0
  rw [happend, Nat.ofDigitChars_replicate_zero, Nat.mul_zero]
  exact Nat.ofDigitChars_toDigits (by decide) (by decide)

/-- The digits at the beginning end before something that is no digit. -/
theorem takeWhile_padded (width n : Nat) (rest : List Char)
    (hrest : ∀ c ∈ rest.head?, c.isDigit = false) :
    (padded width n ++ rest).takeWhile Char.isDigit = padded width n := by
  rw [List.takeWhile_append_of_pos fun c hc => isDigit_of_mem_padded hc]
  cases rest with
  | nil => exact List.append_nil _
  | cons c cs =>
    have hc := hrest c rfl
    rw [List.takeWhile_cons, hc]
    exact List.append_nil _

@[simp] theorem isEmpty_padded (width n : Nat) : (padded width n).isEmpty = false := by
  obtain ⟨c, cs, h, -⟩ := padded_eq_cons width n
  rw [h]
  rfl

theorem number_padded (hwidth : 0 < width) (h : n < Nat.pow 10 width) (rest : List Char) :
    number width (padded width n ++ rest) = some (n, rest) := by
  have hlength := length_padded hwidth h
  have htake : ((padded width n ++ rest).take width).takeWhile Char.isDigit = padded width n := by
    have hwhile := takeWhile_padded width n [] (by simp)
    rw [List.append_nil] at hwhile
    rw [List.take_left' hlength, hwhile]
  unfold number
  simp only [htake, isEmpty_padded, Bool.false_eq_true, if_false, numberOf_padded,
    List.drop_left' rfl]

theorem isBlank_eq_false_of_isDigit {c : Char} (h : c.isDigit) : Text.isBlank c = false := by
  simp only [Char.isDigit, Bool.and_eq_true, decide_eq_true_eq] at h
  have hlow : 48 ≤ c.toNat := h.1
  have hhigh : c.toNat ≤ 57 := h.2
  simp only [Text.isBlank, Bool.or_eq_false_iff, Bool.and_eq_false_iff, decide_eq_false_iff_not,
    beq_eq_false_iff_ne]
  omega

@[simp] theorem skipBlanks_padded (width n : Nat) (rest : List Char) :
    Text.skipBlanks (padded width n ++ rest) = padded width n ++ rest := by
  obtain ⟨c, cs, h, hdigit⟩ := padded_eq_cons width n
  rw [h, Text.skipBlanks, List.cons_append, List.dropWhile_cons, isBlank_eq_false_of_isDigit hdigit]
  rfl

/-! ### Fields -/

theorem field_padded (h : n < 100) (rest : List Char) : field (padded 2 n ++ rest) = some (n, rest) := by
  rw [field, skipBlanks_padded]
  exact number_padded (by decide) h rest

theorem year_padded (h : n < 10000) (rest : List Char) :
    year (padded 4 n ++ rest) = some ((n : Int), rest) := by
  have hnumber : number 4 (padded 4 n ++ rest) = some (n, rest) := number_padded (by decide) h rest
  obtain ⟨c, cs, hcons, hdigit⟩ := padded_eq_cons 4 n
  rw [year, skipBlanks_padded]
  rw [hcons] at hnumber ⊢
  split
  · rename_i heq
    cases heq
    cases hdigit
  · rename_i heq
    cases heq
    cases hdigit
  · rw [hnumber]
    rfl

theorem separator_cons {c : Char} (h : Text.isBlank c = false) (rest : List Char) :
    separator c (c :: rest) = some rest := by
  rw [separator, Text.skipBlanks, List.dropWhile_cons, h]
  exact if_pos rfl

/-- Digits past the point are read as far as they go; what follows is no digit. -/
theorem fraction_padded (hwidth : 0 < width) (hle : width ≤ 9) (h : n < Nat.pow 10 width) :
    fraction ('.' :: (padded width n ++ ['Z'])) = some (n * Nat.pow 10 (9 - width), ['Z']) := by
  have hlength := length_padded hwidth h
  have htake : ((padded width n ++ ['Z']).take 9).takeWhile Char.isDigit = padded width n := by
    rw [List.take_append, List.take_of_length_le (by omega)]
    refine takeWhile_padded width n _ fun c hc => ?_
    obtain rfl := List.mem_singleton.mp (List.mem_of_mem_take (List.mem_of_mem_head? hc))
    rfl
  unfold fraction
  simp only [htake, isEmpty_padded, Bool.false_eq_true, if_false, numberOf_padded, hlength,
    List.drop_left' hlength]
  rfl

/-- A fraction is written with none, three, six or nine digits, whichever are enough. -/
theorem fraction_fractionText (h : n < 1000000000) :
    fraction (fractionText n ++ ['Z']) = some (n, ['Z']) := by
  unfold fractionText
  split
  · rename_i hzero
    rw [hzero]
    rfl
  · split
    · rename_i hmillis
      have hbound : n / 1000000 < 1000 := by omega
      have hexact : n / 1000000 * 1000000 = n := by omega
      rw [List.cons_append, fraction_padded (by decide) (by decide) hbound]
      exact congrArg (fun n => some (n, ['Z'])) hexact
    · split
      · rename_i hmicros
        have hbound : n / 1000 < 1000000 := by omega
        have hexact : n / 1000 * 1000 = n := by omega
        rw [List.cons_append, fraction_padded (by decide) (by decide) hbound]
        exact congrArg (fun n => some (n, ['Z'])) hexact
      · rw [List.cons_append, fraction_padded (by decide) (by decide) h]
        exact congrArg (fun n => some (n, ['Z'])) (Nat.mul_one n)

/-! ### Points in time -/

theorem isValid_iff {t : Timestamp} : t.isValid ↔ t.date.isValid ∧ t.hour < 24 ∧ t.minute < 60 ∧
    t.second ≤ 60 ∧ t.nanosecond < 1000000000 := by
  simp only [isValid, Bool.and_eq_true, decide_eq_true_eq, and_assoc]

theorem earlier_zero {t : Timestamp} (h : t.isValid) : t.earlier 0 = t := by
  obtain ⟨-, hhour, hminute, -⟩ := isValid_iff.mp h
  have hlow : ¬60 * (t.hour : Int) + t.minute - 0 < 0 := by omega
  have hhigh : ¬1440 ≤ 60 * (t.hour : Int) + t.minute - 0 := by omega
  have hhour : ((60 * (t.hour : Int) + t.minute - 0) / 60).toNat = t.hour := by omega
  have hminute : ((60 * (t.hour : Int) + t.minute - 0) % 60).toNat = t.minute := by omega
  unfold earlier
  simp only [if_neg hlow, if_neg hhigh, hhour, hminute]

/-- The point in time is in a year that is written with four digits and no sign. -/
def HasPlainYear (t : Timestamp) : Prop :=
  0 ≤ t.date.year ∧ t.date.year ≤ 9999

theorem daysIn_le (year : Int) (month : Nat) : Date.daysIn year month ≤ 31 := by
  unfold Date.daysIn
  split
  · split <;> decide
  · split <;> decide

/-- The written form, field by field. -/
theorem characters_eq {t : Timestamp} (hyear : t.HasPlainYear) :
    t.characters = padded 4 t.date.year.toNat ++ ('-' :: (padded 2 t.date.month ++
      ('-' :: (padded 2 t.date.day ++ ('T' :: (padded 2 t.hour ++ (':' :: (padded 2 t.minute ++
        (':' :: (padded 2 t.second ++ (fractionText t.nanosecond ++ ['Z']))))))))))) := by
  have hyearText : yearText t.date.year = padded 4 t.date.year.toNat := if_pos hyear
  unfold characters
  rw [hyearText]
  simp only [List.append_assoc, List.cons_append]

/-- Such a point in time reads back as it was. -/
theorem parse_text {t : Timestamp} (h : t.isValid) (hyear : t.HasPlainYear) :
    parse t.text = some t := by
  obtain ⟨hdate, hhour, hminute, hsecond, hnanosecond⟩ := isValid_iff.mp h
  have hmonth : t.date.month < 100 ∧ t.date.day < 100 := by
    have hdays := daysIn_le t.date.year t.date.month
    simp only [Date.isValid, Bool.and_eq_true, decide_eq_true_eq] at hdate
    omega
  have hbound : t.date.year.toNat < 10000 := by
    have hhigh := hyear.2
    omega
  unfold parse text
  rw [String.toList_ofList, characters_eq hyear]
  unfold parseList
  refine Option.bind_eq_some_iff.mpr ⟨_, year_padded hbound _, ?_⟩
  refine Option.bind_eq_some_iff.mpr ⟨_, separator_cons rfl _, ?_⟩
  refine Option.bind_eq_some_iff.mpr ⟨_, field_padded hmonth.1 _, ?_⟩
  refine Option.bind_eq_some_iff.mpr ⟨_, separator_cons rfl _, ?_⟩
  refine Option.bind_eq_some_iff.mpr ⟨_, field_padded hmonth.2 _, ?_⟩
  refine Option.bind_eq_some_iff.mpr ⟨_, rfl, ?_⟩
  refine Option.bind_eq_some_iff.mpr ⟨_, field_padded (by omega) _, ?_⟩
  refine Option.bind_eq_some_iff.mpr ⟨_, separator_cons rfl _, ?_⟩
  refine Option.bind_eq_some_iff.mpr ⟨_, field_padded (by omega) _, ?_⟩
  refine Option.bind_eq_some_iff.mpr ⟨_, separator_cons rfl _, ?_⟩
  refine Option.bind_eq_some_iff.mpr ⟨_, field_padded (by omega) _, ?_⟩
  refine Option.bind_eq_some_iff.mpr ⟨_, fraction_fractionText hnanosecond, ?_⟩
  refine Option.bind_eq_some_iff.mpr ⟨(0, []), rfl, ?_⟩
  have hcast : (t.date.year.toNat : Int) = t.date.year := Int.toNat_of_nonneg hyear.1
  dsimp only
  rw [hcast]
  change (if ((Text.skipBlanks []).isEmpty && t.isValid && decide (Int.natAbs 0 < 1440) &&
    (t.earlier 0).isValid) = true then some (t.earlier 0) else none) = some t
  rw [earlier_zero h, h]
  rfl

/-- Only points in time that there are can be read. -/
theorem isValid_of_parse {s : String} {t : Timestamp} (h : parse s = some t) : t.isValid := by
  unfold parse parseList at h
  obtain ⟨⟨_, _⟩, -, h⟩ := Option.bind_eq_some_iff.mp h
  obtain ⟨_, -, h⟩ := Option.bind_eq_some_iff.mp h
  obtain ⟨⟨_, _⟩, -, h⟩ := Option.bind_eq_some_iff.mp h
  obtain ⟨_, -, h⟩ := Option.bind_eq_some_iff.mp h
  obtain ⟨⟨_, _⟩, -, h⟩ := Option.bind_eq_some_iff.mp h
  obtain ⟨_, -, h⟩ := Option.bind_eq_some_iff.mp h
  obtain ⟨⟨_, _⟩, -, h⟩ := Option.bind_eq_some_iff.mp h
  obtain ⟨_, -, h⟩ := Option.bind_eq_some_iff.mp h
  obtain ⟨⟨_, _⟩, -, h⟩ := Option.bind_eq_some_iff.mp h
  obtain ⟨_, -, h⟩ := Option.bind_eq_some_iff.mp h
  obtain ⟨⟨_, _⟩, -, h⟩ := Option.bind_eq_some_iff.mp h
  obtain ⟨⟨_, _⟩, -, h⟩ := Option.bind_eq_some_iff.mp h
  obtain ⟨⟨_, _⟩, -, h⟩ := Option.bind_eq_some_iff.mp h
  dsimp only at h
  split at h
  · rename_i hchecks
    cases h
    exact (Bool.and_eq_true_iff.mp hchecks).2
  · cases h

end Herald.Timestamp
