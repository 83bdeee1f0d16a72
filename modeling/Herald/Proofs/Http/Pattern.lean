import Herald.Http.Pattern

/-!
Patterns without names. Only one path fits such a pattern, and for this path every other pattern that it
fits is less exact.
-/

namespace Herald.Http.Pattern

/-- The pattern that only this path fits. -/
def literal (path : List Char) : Pattern :=
  path.map .exact

/-- No pattern that a path fits is more exact than the path itself. -/
theorem compare_literal {p : Pattern} {path : List Char} (h : p.fits path) :
    p = literal path ∨ p.compare (literal path) = .gt := by
  induction p generalizing path with
  | nil =>
    rw [List.isEmpty_iff.mp h]
    exact .inl rfl
  | cons part rest ih =>
    cases path with
    | nil =>
      -- A name needs a character or, within a pattern, a slash after it.
      cases part <;> cases rest <;> simp [fits] at h
    | cons c cs =>
      cases part with
      | exact d =>
        obtain ⟨hc, hrest⟩ := Bool.and_eq_true_iff.mp h
        obtain rfl := beq_iff_eq.mp hc
        exact (ih hrest).imp_left (congrArg (List.cons (Part.exact d)))
      | segment => exact .inr rfl
      | rest => exact .inr rfl

@[simp] theorem clashes_self (p : Pattern) : p.clashes p := by
  induction p with
  | nil => rfl
  | cons part rest ih => cases part <;> simp [clashes, ih]

theorem lookup_eq_some {α : Type} {path : List Char} {patterns : List (Pattern × α)}
    {found : Pattern × α} (h : lookup path patterns = some found) :
    found ∈ patterns ∧ found.1.fits path := by
  induction patterns with
  | nil => cases h
  | cons first rest ih =>
    unfold lookup at h
    split at h
    · rename_i q b hrest
      split at h
      · rename_i hfirst
        cases h
        exact ⟨List.mem_cons_self, (Bool.and_eq_true_iff.mp hfirst).1⟩
      · cases h
        exact (ih hrest).imp_left (List.mem_cons_of_mem first)
    · split at h
      · rename_i hfirst
        cases h
        exact ⟨List.mem_cons_self, hfirst⟩
      · cases h

end Herald.Http.Pattern
