import Herald.Proofs.Transport.Pushes

/-!
Nothing begins once a delivery has been called off. Until the instant at which that is due, the clock
stands no later; from then on the root of all tokens of the delivery is cancelled, and nobody tries
again.
-/

namespace Herald

/-- The root is cancelled, or it is going to be at an instant that has not passed. -/
def Timeline.Pending (due : Nat) (tl : Timeline) : Prop :=
  tl.isCancelled tl.root ∨ tl.due = some due ∧ tl.now ≤ due

namespace Timeline

variable {callsOff : Prop} {due : Nat} {token : Token} {tl tl' : Timeline}

/-- Whoever has not been called off is in time. -/
theorem Pending.now_le (h : Pending due tl) (hbelow : token.isBelow tl.root)
    (hgoes : tl.isCancelled token = false) : tl.now ≤ due := by
  obtain hcancelled | ⟨-, hnow⟩ := h
  · rw [isCancelled_of_isBelow hbelow hcancelled] at hgoes
    cases hgoes
  · exact hnow

theorem pending_settle (h : Pending due tl) : Pending due tl.settle := by
  obtain hcancelled | ⟨hdue, hnow⟩ := h
  · refine .inl ?_
    rw [root_settle]
    exact (passes_settle tl.root tl).toFollows.isCancelled hcancelled
  · unfold settle
    rw [hdue]
    dsimp only
    split
    · exact .inl (isCancelled_cancel_self _ tl.root)
    · exact .inr ⟨hdue, hnow⟩

theorem Waits.root_eq (h : Waits callsOff tl tl') : tl'.root = tl.root := by
  induction h with
  | settle _ ih => rw [root_settle, ih]
  | _ => first | rfl | assumption

theorem Waits.pending (h : Waits callsOff tl tl') (hpending : Pending due tl) : Pending due tl' := by
  induction h with
  | refl => exact hpending
  | settle _ ih => exact pending_settle ih
  | move _ _ hdue ih => exact ih.imp_right fun h => ⟨h.1, hdue due h.1⟩
  | ask _ _ ih => exact ih
  | watch _ _ ih => exact ih
  | cancel => exact .inl (isCancelled_cancel_self _ _)

theorem Waits.isCancelled (h : Waits callsOff tl tl') (hcancelled : tl.isCancelled token) :
    tl'.isCancelled token := by
  induction h with
  | refl => exact hcancelled
  | settle _ ih => exact (passes_settle token _).toFollows.isCancelled ih
  | move _ _ _ ih => exact ih
  | ask _ _ ih => exact ih
  | watch _ _ ih => exact ih
  | cancel _ _ ih => exact isCancelled_cancel ih _

end Timeline

open Timeline

/-! ### Attempts -/

namespace RetryPolicy

variable {σ α : Type} {p : RetryPolicy} {transport : String} {token : Token}
  {deadline : Option Nat} {operation : Course σ (Except PushError α)} {left made : Nat}
  {state : σ × Timeline} {starts : List (σ × Timeline)} {out : Option (Retried α) × σ × Timeline}

/-- Whoever finds the token cancelled makes no attempt. -/
theorem Repeats.of_isCancelled (h : p.Repeats transport token deadline operation left made state
    starts out) (hcancelled : state.2.isCancelled token) :
    starts = [] ∧ out = (some (.exhausted .cancelled made), state) := by
  cases h with
  | calledOff => exact ⟨rfl, rfl⟩
  | ended hgoes => exact absurd hcancelled (Bool.eq_false_iff.mp hgoes)
  | interrupted hgoes => exact absurd hcancelled (Bool.eq_false_iff.mp hgoes)
  | again hgoes => exact absurd hcancelled (Bool.eq_false_iff.mp hgoes)

/-- No attempt begins while the token is cancelled. -/
theorem Repeats.isCancelled_eq_false (h : p.Repeats transport token deadline operation left made state
    starts out) : ∀ start ∈ starts, start.2.isCancelled token = false := by
  induction h with
  | calledOff => exact nofun
  | ended hgoes => exact List.forall_mem_singleton.mpr hgoes
  | interrupted hgoes => exact List.forall_mem_singleton.mpr hgoes
  | again hgoes _ _ _ _ ih => exact List.forall_mem_cons.mpr ⟨hgoes, ih⟩

/-- An attempt after which the token is cancelled is the last one. -/
theorem Repeats.eq_nil_of_isCancelled (h : p.Repeats transport token deadline operation left made
    state starts out) {front back : List (σ × Timeline)} {start : σ × Timeline}
    (hstarts : starts = front ++ start :: back)
    (hcancelled : (operation start).2.2.isCancelled token) : back = [] := by
  have hsingleton {first : σ × Timeline} {front : List (σ × Timeline)}
      (h : [first] = front ++ start :: back) : back = [] := by
    cases front with
    | nil => exact (List.cons.inj h).2.symm
    | cons _ front => simp at h
  induction h generalizing front with
  | calledOff => simp at hstarts
  | ended => exact hsingleton hstarts
  | interrupted => exact hsingleton hstarts
  | @again left made s s' tl tl' tl'' e starts out hgoes heq htransient hpause hmore ih =>
    cases front with
    | nil =>
      obtain ⟨rfl, rfl⟩ := List.cons.inj hstarts
      rw [heq] at hcancelled
      exact (hmore.of_isCancelled (hpause.waits.isCancelled hcancelled)).1
    | cons first front => exact ih (List.cons.inj hstarts).2

end RetryPolicy

/-! ### Pushes -/

/-- The delivery of a token below the root is called off in due time; what scripted endpoints have been
given since was given no later. -/
structure Timeline.Punctual (root : Token) (due : Nat) (before : List (String × Nat × Notification))
    (token : Token) (tl : Timeline) : Prop where
  root_eq : tl.root = root
  isBelow : token.isBelow root
  pending : tl.Pending due
  arrivals : ∃ new, tl.arrivals = before ++ new ∧ ∀ a ∈ new, a.2.1 ≤ due

namespace Timeline.Punctual

variable {root : Token} {due : Nat} {before : List (String × Nat × Notification)} {token : Token}
  {callsOff : Prop} {tl tl' : Timeline}

theorem of_waits (h : Punctual root due before token tl) (hwaits : Waits callsOff tl tl') :
    Punctual root due before token tl' where
  root_eq := hwaits.root_eq.trans h.root_eq
  isBelow := h.isBelow
  pending := hwaits.pending h.pending
  arrivals := by
    rw [hwaits.quiet.arrivals]
    exact h.arrivals

theorem now_le (h : Punctual root due before token tl) (hgoes : tl.isCancelled token = false) :
    tl.now ≤ due :=
  h.pending.now_le (h.root_eq.symm ▸ h.isBelow) hgoes

/-- A scripted endpoint is given a notification in time. -/
theorem see_pushed (h : Punctual root due before token tl) (hnow : tl.now ≤ due)
    (transport : String) (n : Notification) :
    Punctual root due before token (tl.see (.pushed transport tl.now n)) where
  root_eq := h.root_eq
  isBelow := h.isBelow
  pending := h.pending
  arrivals := by
    obtain ⟨new, hnew, hall⟩ := h.arrivals
    refine ⟨new ++ [(transport, tl.now, n)], ?_, ?_⟩
    · rw [← List.append_assoc, ← hnew]
      simp [Timeline.arrivals, Timeline.see, Sighting.pushed?]
    · exact List.forall_mem_append.mpr ⟨hall, List.forall_mem_singleton.mpr hnow⟩

theorem see_wrote (h : Punctual root due before token tl) (transport line : String) :
    Punctual root due before token (tl.see (.wrote transport line)) where
  root_eq := h.root_eq
  isBelow := h.isBelow
  pending := h.pending
  arrivals := by
    have heq : (tl.see (.wrote transport line)).arrivals = tl.arrivals := by
      simp [Timeline.arrivals, Timeline.see, Sighting.pushed?]
    rw [heq]
    exact h.arrivals

/-- What is only reported or noted. -/
theorem of_eq (h : Punctual root due before token tl) (hroot : tl'.root = tl.root)
    (hcancelled : tl'.cancelled = tl.cancelled) (hdue : tl'.due = tl.due) (hnow : tl'.now = tl.now)
    (hsightings : tl'.sightings = tl.sightings) : Punctual root due before token tl' where
  root_eq := hroot.trans h.root_eq
  isBelow := h.isBelow
  pending := by
    rw [Pending, Timeline.isCancelled, hroot, hcancelled, hdue, hnow]
    exact h.pending
  arrivals := by
    rw [Timeline.arrivals, hsightings]
    exact h.arrivals

end Timeline.Punctual

namespace Transport

variable {root : Token} {due : Nat} {before : List (String × Nat × Notification)}

/-- Layers push through each other only in time. -/
theorem conduct_punctual (n : Notification) (root : Token) (due : Nat)
    (before : List (String × Nat × Notification)) :
    Conduct n (fun token _ _ tl => Punctual root due before token tl ∧ tl.now ≤ due)
      (fun token _ _ tl => Punctual root due before token tl) where
  weaken h := h.1
  reach := by
    rintro token deadline e tl ⟨h, hnow⟩
    have hhandles := Endpoint.handles_push n token deadline e tl
    generalize (Endpoint.push n token deadline (e, tl)).2.2 = tl' at hhandles ⊢
    cases hhandles with
    | scripted hwaits => exact (h.see_pushed hnow _ n).of_waits hwaits
    | printed _ transport line => exact h.see_wrote transport line
    | worked _ hwaits => exact h.of_waits hwaits
    | reported _ hwaits => exact (h.of_waits hwaits).of_eq rfl rfl rfl rfl rfl
  report _ _ _ h := h.of_eq rfl rfl rfl rfl rfl
  pause h hpause := h.of_waits hpause.waits
  again h hgoes := ⟨h, h.now_le hgoes⟩
  enter := by
    rintro token deadline e tl ticks ⟨h, hnow⟩
    have hbelow : (tl.issue token).1.isBelow root :=
      List.isSuffixOf_iff_suffix.mpr
        ((List.isSuffixOf_iff_suffix.mp h.isBelow).trans (List.suffix_cons _ _))
    exact ⟨⟨h.root_eq, hbelow, h.pending, h.arrivals⟩, hnow⟩
  leave h h' := ⟨h'.root_eq, h.1.isBelow, h'.pending, h'.arrivals⟩
  expire h h' :=
    ⟨h'.root_eq, h.1.isBelow, h'.pending.imp_left fun hc => isCancelled_cancel hc _, h'.arrivals⟩

theorem punctual_push (n : Notification) (t : Transport) {token : Token} {tl : Timeline}
    (h : Punctual root due before token tl) (hnow : tl.now ≤ due) :
    Punctual root due before token (push n token (t, tl)).2.2 :=
  ((conduct_punctual n root due before).pushThrough t.layers token none (t.endpoint, tl)
    ⟨h, hnow⟩).1

end Transport

end Herald
