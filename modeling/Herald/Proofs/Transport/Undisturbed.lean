import Herald.Proofs.Transport.Deadline

/-!
Deliveries that nobody calls off. Their endpoints cancel nothing, and the layers cancel only the tokens
of pushes whose limit has passed. The tokens of later pushes are new ones, so they are good.
-/

namespace Herald

open Timeline

/-! ### Fresh tokens -/

/-- The token was not issued, or its number is below this one. -/
def Token.IssuedBefore (t : Token) (number : Nat) : Prop :=
  ∀ own above, t.path = own :: above → above ≠ [] → own < number

theorem Token.IssuedBefore.mono {t : Token} {number later : Nat} (h : t.IssuedBefore number)
    (hle : number ≤ later) : t.IssuedBefore later :=
  fun own above hpath habove => Nat.lt_of_lt_of_le (h own above hpath habove) hle

/-- The next token is a new one. -/
theorem Token.IssuedBefore.ne_issue {tl : Timeline} {token t : Token} (h : t.IssuedBefore tl.issued)
    (hne : token.path ≠ []) : t ≠ (tl.issue token).1 := by
  rintro rfl
  exact Nat.lt_irrefl _ (h tl.issued token.path rfl hne)

/-- The number of an issued token has been passed. -/
theorem Token.IssuedBefore.lt_of_issue {tl : Timeline} {token : Token} {number : Nat}
    (h : (tl.issue token).1.IssuedBefore number) (hne : token.path ≠ []) : tl.issued < number :=
  h tl.issued token.path rfl hne

theorem isCancelled_issue {tl : Timeline} {token : Token} (hgoes : tl.isCancelled token = false)
    (hne : token.path ≠ []) (hcancelled : ∀ c ∈ tl.cancelled, c.IssuedBefore tl.issued) :
    (tl.issue token).2.isCancelled (tl.issue token).1 = false := by
  rw [Bool.eq_false_iff]
  intro hfresh
  obtain ⟨c, hc, hbelow⟩ := List.any_eq_true.mp hfresh
  obtain hpath | habove := List.suffix_cons_iff.mp (List.isSuffixOf_iff_suffix.mp hbelow)
  · exact Nat.lt_irrefl _ (hcancelled c hc tl.issued token.path hpath hne)
  · refine Bool.eq_false_iff.mp hgoes (List.any_eq_true.mpr ⟨c, hc, ?_⟩)
    exact List.isSuffixOf_iff_suffix.mpr habove

/-! ### Undisturbed deliveries -/

/-- True if no script calls the delivery off. -/
def Endpoint.isCalm : Endpoint → Bool :=
  everyEntry fun entry => !entry.cancel

/-- Nobody calls the delivery off, the token is good, and the deadline has not passed. -/
structure Undisturbed (token : Token) (deadline : Option Nat) (e : Endpoint) (tl : Timeline) :
    Prop where
  due_eq : tl.due = none
  isCalm : e.isCalm
  goes : tl.isCancelled token = false
  isWithin : IsWithin tl.now deadline
  path_ne : token.path ≠ []
  issued : token.IssuedBefore tl.issued
  cancelled : ∀ c ∈ tl.cancelled, c.IssuedBefore tl.issued

namespace Undisturbed

variable {token : Token} {deadline : Option Nat} {e e' : Endpoint} {tl tl' : Timeline}

/-- Where no token is issued or cancelled. -/
theorem of_eq (h : Undisturbed token deadline e tl) (hcalm : e'.isCalm) (hdue : tl'.due = none)
    (hissued : tl'.issued = tl.issued) (hcancelled : tl'.cancelled = tl.cancelled)
    (hwithin : IsWithin tl'.now deadline) : Undisturbed token deadline e' tl' where
  due_eq := hdue
  isCalm := hcalm
  goes := by
    rw [isCancelled, hcancelled]
    exact h.goes
  isWithin := hwithin
  path_ne := h.path_ne
  issued := hissued ▸ h.issued
  cancelled := by
    rw [hissued, hcancelled]
    exact h.cancelled

theorem of_waits (h : Undisturbed token deadline e tl) (hwaits : Waits False tl tl')
    (hwithin : IsWithin tl'.now deadline) : Undisturbed token deadline e tl' :=
  h.of_eq h.isCalm (hwaits.due_eq_none h.due_eq) hwaits.quiet.issued
    (hwaits.cancelled_eq h.due_eq nofun) hwithin

/-- A push under a limit begins with a good token. -/
theorem enter (h : Undisturbed token deadline e tl) (ticks : Nat) :
    Undisturbed (tl.issue token).1 (some (earliest (tl.now + ticks) deadline)) e
      (tl.issue token).2 := by
  refine ⟨h.due_eq, h.isCalm, isCancelled_issue h.goes h.path_ne h.cancelled, ?_,
    List.cons_ne_nil _ _, ?_, fun c hc => (h.cancelled c hc).mono (Nat.le_succ _)⟩
  · rintro d ⟨⟩
    cases deadline with
    | none => exact Nat.le_add_right _ _
    | some d => exact Nat.le_min.mpr ⟨Nat.le_add_right _ _, h.isWithin d rfl⟩
  · rintro own above ⟨⟩ -
    exact Nat.lt_succ_self _

/-- After it the token above is still good. -/
theorem leave (h : Undisturbed token deadline e tl) {ticks : Nat}
    (h' : Undisturbed (tl.issue token).1 (some (earliest (tl.now + ticks) deadline)) e' tl') :
    Undisturbed token deadline e' tl' where
  due_eq := h'.due_eq
  isCalm := h'.isCalm
  goes := by
    have hbelow : (tl.issue token).1.isBelow token :=
      List.isSuffixOf_iff_suffix.mpr (List.suffix_cons _ _)
    exact Bool.eq_false_iff.mpr fun hc =>
      Bool.eq_false_iff.mp h'.goes (isCancelled_of_isBelow hbelow hc)
  isWithin := (isWithin_earliest _ deadline).trans_le (h'.isWithin _ rfl)
  path_ne := h.path_ne
  issued := h.issued.mono (Nat.le_of_lt (h'.issued.lt_of_issue h.path_ne))
  cancelled := h'.cancelled

/-- Also if the token of the limit is cancelled. -/
theorem expire (h : Undisturbed token deadline e tl) {ticks : Nat}
    (h' : Undisturbed (tl.issue token).1 (some (earliest (tl.now + ticks) deadline)) e' tl') :
    Undisturbed token deadline e' (tl'.cancel (tl.issue token).1) where
  due_eq := h'.due_eq
  isCalm := h'.isCalm
  goes := by
    rw [isCancelled, cancel, List.any_cons, (within_issue tl token).not_isBelow, Bool.false_or]
    exact (h.leave h').goes
  isWithin := (h.leave h').isWithin
  path_ne := h.path_ne
  issued := (h.leave h').issued
  cancelled := List.forall_mem_cons.mpr ⟨h'.issued, h'.cancelled⟩

end Undisturbed

namespace Endpoint

variable {e : Endpoint} {tl : Timeline}

/-- A calm endpoint cancels nothing. -/
theorem cancelled_push (hcalm : e.isCalm) (hdue : tl.due = none) (n : Notification) (token : Token)
    (deadline : Option Nat) :
    (push n token deadline (e, tl)).2.2.cancelled = tl.cancelled ∧
      (push n token deadline (e, tl)).2.2.issued = tl.issued := by
  have hhandles := handles_push n token deadline e tl
  generalize (push n token deadline (e, tl)).2.2 = tl' at hhandles ⊢
  cases hhandles with
  | scripted hwaits =>
    have hentry := test_next hcalm rfl
    exact ⟨hwaits.cancelled_eq hdue (by simpa using hentry), hwaits.quiet.issued⟩
  | printed => exact ⟨rfl, rfl⟩
  | worked _ hwaits => exact ⟨hwaits.cancelled_eq hdue nofun, hwaits.quiet.issued⟩
  | reported _ hwaits => exact ⟨hwaits.cancelled_eq hdue nofun, hwaits.quiet.issued⟩

end Endpoint

namespace Transport

/-- Layers leave a delivery undisturbed: only a token whose limit has passed is cancelled, and no token
above it. -/
theorem conduct_undisturbed (n : Notification) : Conduct n Undisturbed Undisturbed where
  weaken h := h
  reach := by
    intro token deadline e tl h
    obtain ⟨hcancelled, hissued⟩ := Endpoint.cancelled_push h.isCalm h.due_eq n token deadline
    exact h.of_eq (Endpoint.everyEntry_push n token deadline tl h.isCalm)
      (Endpoint.due_push n token deadline e h.due_eq) hissued hcancelled
      ((Endpoint.cuts_push n token).isWithin h.due_eq h.isWithin)
  report _ _ _ h := h.of_eq h.isCalm h.due_eq rfl rfl h.isWithin
  pause h hpause := h.of_waits hpause.waits (hpause.isWithin h.isWithin)
  again h _ := h
  enter ticks h := h.enter ticks
  leave h h' := h.leave h'
  expire h h' := h.expire h'

end Transport

end Herald
