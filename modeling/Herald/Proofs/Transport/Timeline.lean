import Herald.Transport.Timeline

/-!
What waiting does to a timeline. Time goes on, what is cancelled stays cancelled, and work under a
token cancels nothing but the token of the delivery and tokens issued below its own.
-/

namespace Herald

/-- The token was issued below `t`. -/
def Token.Within (c t : Token) : Prop :=
  ∃ inner, inner ≠ [] ∧ c.path = inner ++ t.path

theorem Token.Within.trans {a b c : Token} (hab : a.Within b) (hbc : b.Within c) : a.Within c := by
  obtain ⟨inner, hinner, ha⟩ := hab
  obtain ⟨outer, -, hb⟩ := hbc
  exact ⟨inner ++ outer, by simp [hinner], by rw [ha, hb, List.append_assoc]⟩

@[simp] theorem Token.isBelow_self (t : Token) : t.isBelow t :=
  List.isSuffixOf_iff_suffix.mpr (List.suffix_refl t.path)

/-- Cancelling a token below another one does not cancel that one. -/
theorem Token.Within.not_isBelow {c t : Token} (h : c.Within t) : t.isBelow c = false := by
  obtain ⟨inner, hinner, hpath⟩ := h
  rw [Bool.eq_false_iff]
  intro hbelow
  have hle := (List.isSuffixOf_iff_suffix.mp hbelow).length_le
  have hpos := List.length_pos_iff.mpr hinner
  rw [hpath, List.length_append] at hle
  omega

namespace Timeline

/-- A later timeline, after work under a token. -/
structure Follows (token : Token) (tl tl' : Timeline) : Prop where
  now_le : tl.now ≤ tl'.now
  kept : ∀ c ∈ tl.cancelled, c ∈ tl'.cancelled
  root_eq : tl'.root = tl.root
  added : ∀ c ∈ tl'.cancelled, c ∈ tl.cancelled ∨ c = tl.root ∨ c.Within token

/-- A later timeline, after work under a token in which no transport had a turn. -/
structure Passes (token : Token) (tl tl' : Timeline) : Prop extends Follows token tl tl' where
  turns : tl'.turns = tl.turns

variable {token : Token} {tl tl' tl'' : Timeline}

theorem Follows.refl (token : Token) (tl : Timeline) : Follows token tl tl :=
  ⟨Nat.le_refl _, fun _ h => h, rfl, fun _ h => .inl h⟩

theorem Follows.trans (h : Follows token tl tl') (h' : Follows token tl' tl'') :
    Follows token tl tl'' where
  now_le := Nat.le_trans h.now_le h'.now_le
  kept c hc := h'.kept c (h.kept c hc)
  root_eq := h'.root_eq.trans h.root_eq
  added c hc := (h'.added c hc).elim (h.added c) fun hc => .inr (h.root_eq ▸ hc)

theorem Follows.isCancelled (h : Follows token tl tl') {t : Token} (ht : tl.isCancelled t) :
    tl'.isCancelled t := by
  obtain ⟨c, hc, hbelow⟩ := List.any_eq_true.mp ht
  exact List.any_eq_true.mpr ⟨c, h.kept c hc, hbelow⟩

/-- Work under a token outside the delivery does not cancel the token. -/
theorem Follows.isCancelled_eq (h : Follows token tl tl') (hout : token.isBelow tl.root = false) :
    tl'.isCancelled token = tl.isCancelled token := by
  rw [Bool.eq_iff_iff]
  refine ⟨fun ht => ?_, h.isCancelled⟩
  obtain ⟨c, hc, hbelow⟩ := List.any_eq_true.mp ht
  obtain hc | rfl | hc := h.added c hc
  · exact List.any_eq_true.mpr ⟨c, hc, hbelow⟩
  · rw [hout] at hbelow
    cases hbelow
  · rw [hc.not_isBelow] at hbelow
    cases hbelow

namespace Passes

theorem refl (token : Token) (tl : Timeline) : Passes token tl tl :=
  ⟨.refl token tl, rfl⟩

/-- What only reports, watches or counts. -/
theorem of_eq (hnow : tl'.now = tl.now) (hcancelled : tl'.cancelled = tl.cancelled)
    (hroot : tl'.root = tl.root) (hturns : tl'.turns = tl.turns) : Passes token tl tl' where
  now_le := Nat.le_of_eq hnow.symm
  kept _ hc := hcancelled ▸ hc
  root_eq := hroot
  added _ hc := .inl (hcancelled ▸ hc)
  turns := hturns

theorem trans (h : Passes token tl tl') (h' : Passes token tl' tl'') : Passes token tl tl'' :=
  ⟨h.toFollows.trans h'.toFollows, h'.turns.trans h.turns⟩

/-- Work under a token is work under the tokens above it. -/
theorem outward {child : Token} (h : Passes child tl tl') (hchild : child.Within token) :
    Passes token tl tl' where
  now_le := h.now_le
  kept := h.kept
  root_eq := h.root_eq
  added c hc := (h.added c hc).imp_right fun hc => hc.imp_right fun hc => hc.trans hchild
  turns := h.turns

end Passes

/-! ### Steps -/

theorem passes_report (token : Token) (tl : Timeline) (level : Log.Level) (message : String)
    (details : List (String × String)) : Passes token tl (tl.report level message details) :=
  .of_eq rfl rfl rfl rfl

theorem passes_hear {α : Type} (token : Token) (tl : Timeline) (x : Logged α) :
    Passes token tl (tl.hear x) :=
  .of_eq rfl rfl rfl rfl

theorem passes_see (token : Token) (tl : Timeline) (s : Sighting) : Passes token tl (tl.see s) :=
  .of_eq rfl rfl rfl rfl

theorem passes_issue (token : Token) (tl : Timeline) (parent : Token) :
    Passes token tl (tl.issue parent).2 :=
  .of_eq rfl rfl rfl rfl

theorem within_issue (tl : Timeline) (parent : Token) : (tl.issue parent).1.Within parent :=
  ⟨[tl.issued], List.cons_ne_nil _ _, rfl⟩

theorem passes_observe (token : Token) (tl : Timeline) (t : Token) :
    Passes token tl (tl.observe t) :=
  .of_eq rfl rfl rfl rfl

theorem passes_notice (token : Token) (tl : Timeline) : Passes token tl tl.notice :=
  .of_eq rfl rfl rfl rfl

theorem passes_cancel (tl : Timeline) {t : Token} (h : t = tl.root ∨ t.Within token) :
    Passes token tl (tl.cancel t) where
  now_le := Nat.le_refl _
  kept _ hc := List.mem_cons_of_mem t hc
  root_eq := rfl
  added _ hc := (List.mem_cons.mp hc).elim (fun hc => .inr (hc ▸ h)) .inl
  turns := rfl

theorem passes_settle (token : Token) (tl : Timeline) : Passes token tl tl.settle := by
  have hdue : Passes token tl { tl with due := none } := .of_eq rfl rfl rfl rfl
  unfold settle
  split
  · split
    · exact (hdue.trans (passes_cancel _ (.inl rfl))).trans (passes_notice token _)
    · exact passes_notice token tl
  · exact passes_notice token tl

theorem passes_now (token : Token) {tl : Timeline} {instant : Nat} (h : tl.now ≤ instant) :
    Passes token tl { tl with now := instant } :=
  ⟨⟨h, fun _ h => h, rfl, fun _ h => .inl h⟩, rfl⟩

@[simp] theorem now_settle (tl : Timeline) : tl.settle.now = tl.now := by
  unfold settle
  split
  · split <;> rfl
  · rfl

theorem passes_settleAt (token : Token) (tl : Timeline) (instant : Nat) :
    Passes token tl (tl.settleAt instant) := by
  have hnow : tl.settle.now ≤ max tl.now instant := by
    rw [now_settle]
    exact Nat.le_max_left _ _
  exact ((passes_settle token tl).trans (passes_now token hnow)).trans (passes_settle token _)

@[simp] theorem now_settleAt (tl : Timeline) (instant : Nat) :
    (tl.settleAt instant).now = max tl.now instant :=
  now_settle _

theorem passes_advance (token : Token) (tl : Timeline) (instant : Nat) :
    Passes token tl (tl.advance instant) := by
  have hsettle := passes_settle token tl
  have hnow := now_settle tl
  unfold advance
  split
  · exact .refl token tl
  · rename_i hlater
    dsimp only
    split
    · rename_i due _
      split
      · rename_i hdue
        have hat := passes_settleAt token tl.settle due
        refine (hsettle.trans hat).trans (passes_now token ?_)
        rw [now_settleAt, hnow]
        omega
      · exact hsettle.trans (passes_now token (by omega))
    · exact hsettle.trans (passes_now token (by omega))

theorem passes_sleep (token : Token) (tl : Timeline) (ticks : Nat) (deadline : Option Nat) :
    Passes token tl (tl.sleep ticks deadline).2 :=
  passes_advance token tl _

theorem passes_rest (token : Token) (tl : Timeline) (ticks : Nat) (t : Token)
    (deadline : Option Nat) : Passes token tl (tl.rest ticks t deadline).2 := by
  unfold rest
  split
  · exact .refl token tl
  · split
    · exact passes_settleAt token tl _
    · exact passes_sleep token tl ticks deadline

theorem passes_pause (token : Token) (tl : Timeline) (length : Duration) (t : Token)
    (deadline : Option Nat) : Passes token tl (tl.pause length t deadline).2 := by
  have hpauses : Passes token tl { tl with pauses := tl.pauses ++ [length] } := .of_eq rfl rfl rfl rfl
  exact hpauses.trans (passes_rest token _ length.ticks t deadline)

theorem passes_awaitCancellation (token : Token) (tl : Timeline) (t : Token)
    (deadline : Option Nat) : Passes token tl (tl.awaitCancellation t deadline).2 := by
  unfold awaitCancellation
  split
  · exact .refl token tl
  · split
    · exact passes_settleAt token tl _
    · exact passes_advance token tl _
    · exact passes_settle token tl

end Timeline

end Herald
