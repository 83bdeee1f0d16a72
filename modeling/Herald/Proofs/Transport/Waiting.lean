import Herald.Proofs.Transport.Timeline

/-!
Waiting. Whatever a delivery waits for, others have their turn and time goes on, but never beyond the
instant at which the delivery is called off while this is still to come.
-/

namespace Herald

/-- What a sighting of a push shows: transport, instant and notification. -/
def Sighting.pushed? : Sighting → Option (String × Nat × Notification)
  | .pushed transport instant n => some (transport, instant, n)
  | _ => none

namespace Timeline

/-- What scripted endpoints have been given. -/
def arrivals (tl : Timeline) : List (String × Nat × Notification) :=
  tl.sightings.filterMap Sighting.pushed?

/-- From `tl` the delivery has only waited, watched its tokens and, where it may, called itself off. -/
inductive Waits (callsOff : Prop) (tl : Timeline) : Timeline → Prop
  | refl : Waits callsOff tl tl
  | settle {tl' : Timeline} (h : Waits callsOff tl tl') : Waits callsOff tl tl'.settle
  | move {tl' : Timeline} (h : Waits callsOff tl tl') {instant : Nat} (hlater : tl'.now ≤ instant)
      (hdue : ∀ due, tl'.due = some due → instant ≤ due) :
      Waits callsOff tl { tl' with now := instant }
  | ask {tl' : Timeline} (h : Waits callsOff tl tl') (length : Duration) :
      Waits callsOff tl { tl' with pauses := tl'.pauses ++ [length] }
  | watch {tl' : Timeline} (h : Waits callsOff tl tl') (t : Token) :
      Waits callsOff tl (tl'.observe t)
  | cancel {tl' : Timeline} (h : Waits callsOff tl tl') (hcallsOff : callsOff) :
      Waits callsOff tl (tl'.cancel tl'.root)

variable {callsOff : Prop} {token : Token} {tl tl' tl'' : Timeline}

theorem Waits.trans (h : Waits callsOff tl tl') (h' : Waits callsOff tl' tl'') :
    Waits callsOff tl tl'' := by
  induction h' with
  | refl => exact h
  | settle _ ih => exact ih.settle
  | move _ hlater hdue ih => exact ih.move hlater hdue
  | ask _ length ih => exact ih.ask length
  | watch _ t ih => exact ih.watch t
  | cancel _ hcallsOff ih => exact ih.cancel hcallsOff

/-! ### Tokens -/

theorem isCancelled_of_isBelow {t ancestor : Token} (hbelow : t.isBelow ancestor)
    (h : tl.isCancelled ancestor) : tl.isCancelled t := by
  obtain ⟨c, hc, hancestor⟩ := List.any_eq_true.mp h
  have hsuffix := (List.isSuffixOf_iff_suffix.mp hancestor).trans
    (List.isSuffixOf_iff_suffix.mp hbelow)
  exact List.any_eq_true.mpr ⟨c, hc, List.isSuffixOf_iff_suffix.mpr hsuffix⟩

theorem isCancelled_cancel_self (tl : Timeline) (t : Token) : (tl.cancel t).isCancelled t :=
  List.any_eq_true.mpr ⟨t, List.mem_cons_self,
    List.isSuffixOf_iff_suffix.mpr (List.suffix_refl t.path)⟩

theorem isCancelled_cancel (h : tl.isCancelled token) (t : Token) :
    (tl.cancel t).isCancelled token := by
  obtain ⟨c, hc, hbelow⟩ := List.any_eq_true.mp h
  exact List.any_eq_true.mpr ⟨c, List.mem_cons_of_mem t hc, hbelow⟩

/-! ### Steps -/

/-- What is still to come after others have had their turn comes later. -/
theorem now_lt_of_due_settle {due : Nat} (h : tl.settle.due = some due) :
    tl.due = some due ∧ tl.now < due := by
  unfold settle at h
  split at h
  · rename_i instant hdue
    split at h
    · cases h
    · have heq : tl.due = some due := h
      cases hdue.symm.trans heq
      exact ⟨hdue, by omega⟩
  · rename_i hdue
    exact absurd (hdue.symm.trans h) nofun

theorem due_settle_of_le {due : Nat} (hdue : tl.due = some due) (h : due ≤ tl.now) :
    tl.settle.due = none := by
  unfold settle
  rw [hdue]
  dsimp only
  rw [if_pos h]
  rfl

theorem due_settle_of_none (h : tl.due = none) : tl.settle.due = none := by
  unfold settle
  rw [h]
  exact h

/-- At the instant at which it is due, the delivery is called off. -/
theorem due_settleAt {due : Nat} (hdue : tl.due = some due) {instant : Nat} (h : due ≤ instant) :
    (tl.settleAt instant).due = none := by
  unfold settleAt
  cases hsettle : tl.settle.due with
  | none => exact due_settle_of_none hsettle
  | some due' =>
    cases hdue.symm.trans (now_lt_of_due_settle hsettle).1
    exact due_settle_of_le hsettle (Nat.le_trans h (Nat.le_max_right _ _))

theorem waits_settleAt (callsOff : Prop) {due instant : Nat} (hdue : tl.due = some due)
    (h : instant ≤ max tl.now due) : Waits callsOff tl (tl.settleAt instant) := by
  refine ((Waits.refl.settle).move ?_ fun due' hdue' => ?_).settle
  · rw [now_settle]
    exact Nat.le_max_left _ _
  · have hlater := now_lt_of_due_settle hdue'
    cases hdue.symm.trans hlater.1
    omega

theorem waits_advance (callsOff : Prop) (tl : Timeline) (instant : Nat) :
    Waits callsOff tl (tl.advance instant) := by
  have hnow := now_settle tl
  unfold advance
  split
  · exact .refl
  · rename_i hlater
    dsimp only
    split
    · rename_i due hdue
      split
      · have hcalledOff := due_settleAt hdue (Nat.le_refl due)
        refine ((Waits.refl.settle).trans (waits_settleAt callsOff hdue (by omega))).move ?_ ?_
        · rw [now_settleAt]
          omega
        · rw [hcalledOff]
          exact nofun
      · refine (Waits.refl.settle).move (by omega) fun due' hdue' => ?_
        cases hdue.symm.trans hdue'
        omega
    · rename_i hdue
      refine (Waits.refl.settle).move (by omega) ?_
      rw [hdue]
      exact nofun

theorem waits_sleep (callsOff : Prop) (tl : Timeline) (ticks : Nat) (deadline : Option Nat) :
    Waits callsOff tl (tl.sleep ticks deadline).2 :=
  waits_advance callsOff tl _

/-- Being called off while waiting comes as it is due. -/
theorem calledOff?_eq_some {token : Token} {waitEnd : Option Nat} {instant : Nat}
    (h : tl.calledOff? token waitEnd = some instant) :
    token.isBelow tl.root ∧ (∃ due, tl.due = some due ∧ instant = max tl.now due) ∧
      ∀ finish, waitEnd = some finish → instant < finish := by
  unfold calledOff? at h
  split at h
  · rename_i hbelow
    obtain ⟨hinstant, hfinish⟩ := Option.filter_eq_some_iff.mp h
    obtain ⟨due, hdue, rfl⟩ := Option.map_eq_some_iff.mp hinstant
    refine ⟨hbelow, ⟨due, hdue, rfl⟩, ?_⟩
    rintro finish rfl
    exact of_decide_eq_true hfinish
  · cases h

theorem waits_rest (callsOff : Prop) (tl : Timeline) (ticks : Nat) (token : Token)
    (deadline : Option Nat) : Waits callsOff tl (tl.rest ticks token deadline).2 := by
  unfold rest
  split
  · exact .refl
  · split
    · rename_i instant hcalledOff
      obtain ⟨-, ⟨due, hdue, rfl⟩, -⟩ := calledOff?_eq_some hcalledOff
      exact waits_settleAt callsOff hdue (Nat.le_refl _)
    · exact waits_sleep callsOff tl ticks deadline

theorem waits_pause (callsOff : Prop) (tl : Timeline) (length : Duration) (token : Token)
    (deadline : Option Nat) : Waits callsOff tl (tl.pause length token deadline).2 :=
  (Waits.refl.ask length).trans (waits_rest callsOff _ length.ticks token deadline)

theorem waits_awaitCancellation (callsOff : Prop) (tl : Timeline) (token : Token)
    (deadline : Option Nat) : Waits callsOff tl (tl.awaitCancellation token deadline).2 := by
  unfold awaitCancellation
  split
  · exact .refl
  · split
    · rename_i instant hcalledOff
      obtain ⟨-, ⟨due, hdue, rfl⟩, -⟩ := calledOff?_eq_some hcalledOff
      exact waits_settleAt callsOff hdue (Nat.le_refl _)
    · exact waits_advance callsOff tl _
    · exact Waits.refl.settle

/-! ### What waiting leaves as it was -/

@[simp] theorem log_settle (tl : Timeline) : tl.settle.log = tl.log := by
  unfold settle
  split
  · split <;> rfl
  · rfl

@[simp] theorem issued_settle (tl : Timeline) : tl.settle.issued = tl.issued := by
  unfold settle
  split
  · split <;> rfl
  · rfl

@[simp] theorem root_settle (tl : Timeline) : tl.settle.root = tl.root := by
  unfold settle
  split
  · split <;> rfl
  · rfl

@[simp] theorem arrivals_notice (tl : Timeline) : tl.notice.arrivals = tl.arrivals := by
  have hnone : ∀ ts : List Token,
      (ts.map fun _ => Sighting.tokenCancelled tl.now).filterMap Sighting.pushed? = [] := by
    intro ts
    simp [Sighting.pushed?]
  simp only [notice, arrivals, List.filterMap_append, hnone, List.append_nil]

@[simp] theorem arrivals_settle (tl : Timeline) : tl.settle.arrivals = tl.arrivals := by
  unfold settle
  split
  · split
    · rw [arrivals_notice]
      rfl
    · exact arrivals_notice tl
  · exact arrivals_notice tl

/-- Whoever waits reports nothing, issues nothing and is given nothing. -/
structure Quiet (tl tl' : Timeline) : Prop where
  log : tl'.log = tl.log
  issued : tl'.issued = tl.issued
  arrivals : tl'.arrivals = tl.arrivals

theorem Quiet.trans (h : Quiet tl tl') (h' : Quiet tl' tl'') : Quiet tl tl'' :=
  ⟨h'.log.trans h.log, h'.issued.trans h.issued, h'.arrivals.trans h.arrivals⟩

theorem Waits.quiet (h : Waits callsOff tl tl') : Quiet tl tl' := by
  induction h with
  | refl => exact ⟨rfl, rfl, rfl⟩
  | settle _ ih => exact ih.trans ⟨log_settle _, issued_settle _, arrivals_settle _⟩
  | move _ _ _ ih => exact ih.trans ⟨rfl, rfl, rfl⟩
  | ask _ _ ih => exact ih.trans ⟨rfl, rfl, rfl⟩
  | watch _ _ ih => exact ih.trans ⟨rfl, rfl, rfl⟩
  | cancel _ _ ih => exact ih.trans ⟨rfl, rfl, rfl⟩

theorem Waits.now_le (h : Waits callsOff tl tl') : tl.now ≤ tl'.now := by
  induction h with
  | refl => exact Nat.le_refl _
  | settle _ ih => rwa [now_settle]
  | move _ hlater _ ih => exact Nat.le_trans ih hlater
  | _ => assumption

/-- A delivery that nobody is going to call off stays so. -/
theorem Waits.due_eq_none (h : Waits callsOff tl tl') (hdue : tl.due = none) : tl'.due = none := by
  induction h with
  | refl => exact hdue
  | settle _ ih => exact due_settle_of_none ih
  | _ => assumption

/-- If nobody calls the delivery off, waiting cancels nothing. -/
theorem Waits.cancelled_eq (h : Waits callsOff tl tl') (hdue : tl.due = none)
    (hspares : ¬callsOff) : tl'.cancelled = tl.cancelled := by
  induction h with
  | refl => rfl
  | settle h ih =>
    rw [← ih, Timeline.settle, h.due_eq_none hdue]
    rfl
  | cancel _ hcallsOff _ => exact absurd hcallsOff hspares
  | _ => assumption

/-! ### Deadlines -/

@[simp] theorem now_advance (tl : Timeline) (instant : Nat) :
    (tl.advance instant).now = max tl.now instant := by
  unfold advance
  split
  · omega
  · dsimp only
    split
    · dsimp only
      omega
    · dsimp only
      omega

/-- The instant comes no later than the deadline, if there is one. -/
def IsWithin (instant : Nat) (deadline : Option Nat) : Prop :=
  ∀ d, deadline = some d → instant ≤ d

theorem earliest_le (instant : Nat) (deadline : Option Nat) :
    earliest instant deadline ≤ instant := by
  cases deadline with
  | none => exact Nat.le_refl instant
  | some d => exact Nat.min_le_left instant d

theorem isWithin_earliest (instant : Nat) (deadline : Option Nat) :
    IsWithin (earliest instant deadline) deadline := by
  rintro d rfl
  exact Nat.min_le_right instant d

theorem le_earliest {a instant : Nat} {deadline : Option Nat} (h : a ≤ instant)
    (hwithin : IsWithin a deadline) : a ≤ earliest instant deadline := by
  cases deadline with
  | none => exact h
  | some d => exact Nat.le_min.mpr ⟨h, hwithin d rfl⟩

/-- Either the deadline falls before the instant, or the instant comes in time. -/
theorem cutsBefore_cases (deadline : Option Nat) (instant : Nat) :
    cutsBefore deadline instant = true ∧
        (∃ d, deadline = some d ∧ d < instant ∧ earliest instant deadline = d) ∨
      cutsBefore deadline instant = false ∧ earliest instant deadline = instant := by
  cases deadline with
  | none => exact .inr ⟨rfl, rfl⟩
  | some d =>
    by_cases hfirst : d < instant
    · exact .inl ⟨decide_eq_true hfirst, d, rfl, hfirst, Nat.min_eq_right (Nat.le_of_lt hfirst)⟩
    · exact .inr ⟨decide_eq_false hfirst, Nat.min_eq_left (Nat.le_of_not_lt hfirst)⟩

theorem IsWithin.trans_le {a b : Nat} {deadline : Option Nat} (h : IsWithin b deadline)
    (hle : a ≤ b) : IsWithin a deadline :=
  fun d hd => Nat.le_trans hle (h d hd)

theorem IsWithin.max {a b : Nat} {deadline : Option Nat} (ha : IsWithin a deadline)
    (hb : IsWithin b deadline) : IsWithin (max a b) deadline :=
  fun d hd => Nat.max_le.mpr ⟨ha d hd, hb d hd⟩

theorem isWithin_sleep {deadline : Option Nat} (h : IsWithin tl.now deadline) (ticks : Nat) :
    IsWithin (tl.sleep ticks deadline).2.now deadline := by
  rw [sleep, now_advance]
  exact h.max (isWithin_earliest _ deadline)

theorem isWithin_rest (tl : Timeline) {deadline : Option Nat} (h : IsWithin tl.now deadline)
    (ticks : Nat) (token : Token) : IsWithin (tl.rest ticks token deadline).2.now deadline := by
  unfold rest
  split
  · exact h
  · split
    · rename_i instant hcalledOff
      obtain ⟨-, -, hfinish⟩ := calledOff?_eq_some hcalledOff
      rw [now_settleAt]
      exact h.max ((isWithin_earliest _ deadline).trans_le (Nat.le_of_lt (hfinish _ rfl)))
    · exact isWithin_sleep h ticks

theorem rest_ne_cut (tl : Timeline) (ticks : Nat) (token : Token) :
    (tl.rest ticks token none).1 ≠ .cut := by
  unfold rest
  split
  · exact nofun
  · split
    · exact nofun
    · exact nofun

end Timeline

end Herald
