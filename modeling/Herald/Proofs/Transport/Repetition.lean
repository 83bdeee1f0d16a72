import Herald.Proofs.Transport.Waiting
import Herald.Transport.Retry

/-!
How an operation is repeated. A pause may find at the same time that it is over and that the token is
cancelled; either may count. Whichever does, an attempt is made only while the token is not cancelled.
-/

namespace Herald

open Timeline

/-- How a pause may end and when: as it ends if what comes first counts, and either way if it is over
at the instant at which the token is cancelled. -/
inductive Timeline.PauseEnds (tl : Timeline) (length : Duration) (token : Token)
    (deadline : Option Nat) : Pause → Timeline → Prop
  | first {ending : Pause} {tl' : Timeline} (h : tl.pause length token deadline = (ending, tl')) :
      PauseEnds tl length token deadline ending tl'
  | together {ending : Pause} {tl' : Timeline} (hcut : ending ≠ .cut)
      (hwaits : Waits False tl tl') (hnow : tl'.now = tl.now + length.ticks)
      (hdeadline : IsWithin tl'.now deadline) (hcancelled : tl'.isCancelled token) :
      PauseEnds tl length token deadline ending tl'

theorem Timeline.PauseEnds.waits {tl tl' : Timeline} {length : Duration} {token : Token}
    {deadline : Option Nat} {ending : Pause} (h : tl.PauseEnds length token deadline ending tl') :
    Waits False tl tl' := by
  cases h with
  | first h =>
    have hwaits := waits_pause False tl length token deadline
    rw [h] at hwaits
    exact hwaits
  | together _ hwaits => exact hwaits

theorem Timeline.PauseEnds.isWithin {tl tl' : Timeline} {length : Duration} {token : Token}
    {deadline : Option Nat} {ending : Pause} (h : tl.PauseEnds length token deadline ending tl')
    (hnow : IsWithin tl.now deadline) : IsWithin tl'.now deadline := by
  cases h with
  | first h =>
    have hwithin : IsWithin (tl.pause length token deadline).2.now deadline :=
      isWithin_rest { tl with pauses := tl.pauses ++ [length] } hnow length.ticks token
    rw [h] at hwithin
    exact hwithin
  | together _ _ _ hdeadline => exact hdeadline

namespace RetryPolicy

variable {σ α : Type}

/-- An operation is repeated as the policy says: from a state on, with a number of attempts left after
the next one and a number of attempts made, it is run in these states, and this comes of it. -/
inductive Repeats (p : RetryPolicy) (transport : String) (token : Token) (deadline : Option Nat)
    (operation : Course σ (Except PushError α)) : (left made : Nat) → σ × Timeline →
    (starts : List (σ × Timeline)) → Option (Retried α) × σ × Timeline → Prop
  | calledOff {left made : Nat} {s : σ} {tl : Timeline} (h : tl.isCancelled token) :
      Repeats p transport token deadline operation left made (s, tl) []
        (some (.exhausted .cancelled made), s, tl)
  | ended {left made : Nat} {s s' : σ} {tl tl' : Timeline}
      {result : Option (Except PushError α)} {out : Option (Retried α)}
      (hgoes : tl.isCancelled token = false) (heq : operation (s, tl) = (result, s', tl'))
      (hout : match result with
        | none => out = none
        | some (.ok a) => out = some (.success a)
        | some (.error e) => e.permanent = true ∧ out = some (.permanent e) ∨
            e.permanent = false ∧ left = 0 ∧ out = some (.exhausted e (made + 1))) :
      Repeats p transport token deadline operation left made (s, tl) [(s, tl)] (out, s', tl')
  | interrupted {left made : Nat} {s s' : σ} {tl tl' tl'' : Timeline} {e : PushError}
      {ending : Pause} (hgoes : tl.isCancelled token = false)
      (heq : operation (s, tl) = (some (.error e), s', tl')) (htransient : e.permanent = false)
      (hpause : (p.reportRetry transport (made + 1) e tl').PauseEnds (p.backoff.delay made) token
        deadline ending tl'') (hending : ending ≠ .elapsed) :
      Repeats p transport token deadline operation (left + 1) made (s, tl) [(s, tl)]
        (if ending = .cut then none else some (.exhausted e (made + 1)), s', tl'')
  | again {left made : Nat} {s s' : σ} {tl tl' tl'' : Timeline} {e : PushError}
      {starts : List (σ × Timeline)} {out : Option (Retried α) × σ × Timeline}
      (hgoes : tl.isCancelled token = false)
      (heq : operation (s, tl) = (some (.error e), s', tl')) (htransient : e.permanent = false)
      (hpause : (p.reportRetry transport (made + 1) e tl').PauseEnds (p.backoff.delay made) token
        deadline .elapsed tl'')
      (hmore : Repeats p transport token deadline operation left (made + 1) (s', tl'') starts out) :
      Repeats p transport token deadline operation (left + 1) made (s, tl) ((s, tl) :: starts) out

/-- The states in which an operation is run that is repeated as the policy says. -/
def starts (p : RetryPolicy) (transport : String) (token : Token) (deadline : Option Nat)
    (operation : Course σ (Except PushError α)) : (left made : Nat) → σ × Timeline →
    List (σ × Timeline)
  | left, made, (s, tl) =>
    if tl.isCancelled token then []
    else
      (s, tl) :: match operation (s, tl) with
        | (some (.error e), s, tl) =>
          if e.permanent then []
          else
            match left with
            | 0 => []
            | left + 1 =>
              match (p.reportRetry transport (made + 1) e tl).pause (p.backoff.delay made) token
                deadline with
              | (.elapsed, tl) =>
                starts p transport token deadline operation left (made + 1) (s, tl)
              | _ => []
        | _ => []

variable {p : RetryPolicy} {transport : String} {token : Token} {deadline : Option Nat}
  {operation : Course σ (Except PushError α)} {left made : Nat} {state : σ × Timeline}
  {starts' : List (σ × Timeline)} {out : Option (Retried α) × σ × Timeline}

/-- The attempts repeat the operation so, and what comes first counts. -/
theorem repeats_attempts (p : RetryPolicy) (transport : String) (token : Token)
    (deadline : Option Nat) (operation : Course σ (Except PushError α)) (left made : Nat)
    (state : σ × Timeline) :
    p.Repeats transport token deadline operation left made state
      (p.starts transport token deadline operation left made state)
      (p.attempts transport token deadline operation left made state) := by
  fun_induction p.attempts transport token deadline operation left made state with
  | case1 _ _ s tl hcancelled =>
    rw [starts, if_pos hcancelled]
    exact .calledOff hcancelled
  | case2 _ _ s tl hgoes s' tl' heq =>
    rw [starts, if_neg hgoes, heq]
    exact .ended (Bool.eq_false_iff.mpr hgoes) heq rfl
  | case3 _ _ s tl hgoes a s' tl' heq =>
    rw [starts, if_neg hgoes, heq]
    exact .ended (Bool.eq_false_iff.mpr hgoes) heq rfl
  | case4 _ _ s tl hgoes e s' tl' heq hpermanent =>
    rw [starts, if_neg hgoes, heq]
    dsimp only
    rw [if_pos hpermanent]
    exact .ended (Bool.eq_false_iff.mpr hgoes) heq (.inl ⟨hpermanent, rfl⟩)
  | case5 _ s tl hgoes e s' tl' heq hpermanent =>
    rw [starts, if_neg hgoes, heq]
    dsimp only
    rw [if_neg hpermanent]
    exact .ended (Bool.eq_false_iff.mpr hgoes) heq
      (.inr ⟨Bool.eq_false_iff.mpr hpermanent, rfl, rfl⟩)
  | case6 _ s tl hgoes e s' tl' heq hpermanent _ _ tl'' hpaused =>
    rw [starts, if_neg hgoes, heq]
    dsimp only
    rw [if_neg hpermanent, hpaused]
    exact .interrupted (Bool.eq_false_iff.mpr hgoes) heq (Bool.eq_false_iff.mpr hpermanent)
      (.first hpaused) nofun
  | case7 _ s tl hgoes e s' tl' heq hpermanent _ _ tl'' hpaused =>
    rw [starts, if_neg hgoes, heq]
    dsimp only
    rw [if_neg hpermanent, hpaused]
    exact .interrupted (Bool.eq_false_iff.mpr hgoes) heq (Bool.eq_false_iff.mpr hpermanent)
      (.first hpaused) nofun
  | case8 _ s tl hgoes e s' tl' heq hpermanent _ _ tl'' hpaused ih =>
    rw [starts, if_neg hgoes, heq]
    dsimp only
    rw [if_neg hpermanent, hpaused]
    exact .again (Bool.eq_false_iff.mpr hgoes) heq (Bool.eq_false_iff.mpr hpermanent)
      (.first hpaused) ih

/-- There is one attempt more than are left, at most. -/
theorem Repeats.length_starts_le
    (h : p.Repeats transport token deadline operation left made state starts' out) :
    starts'.length ≤ left + 1 := by
  induction h with
  | calledOff => exact Nat.zero_le _
  | ended => exact Nat.le_add_left 1 _
  | interrupted => exact Nat.le_add_left 1 _
  | again _ _ _ _ _ ih => exact Nat.succ_le_succ ih

/-- What holds after the operation and is kept by reports and pauses holds in the end; what it comes to
while the token is not cancelled holds before each attempt. -/
theorem Repeats.conduct (Before After : σ → Timeline → Prop)
    (h : p.Repeats transport token deadline operation left made state starts' out)
    (hoperation : ∀ s tl, Before s tl → After (operation (s, tl)).2.1 (operation (s, tl)).2.2)
    (hpause : ∀ s tl tl', After s tl → ∀ level message details length ending,
      (tl.report level message details).PauseEnds length token deadline ending tl' → After s tl')
    (hagain : ∀ s tl, After s tl → tl.isCancelled token = false → Before s tl)
    (hstate : After state.1 state.2) :
    After out.2.1 out.2.2 ∧ ∀ start ∈ starts', Before start.1 start.2 := by
  induction h with
  | calledOff => exact ⟨hstate, nofun⟩
  | ended hgoes heq =>
    have hbefore := hagain _ _ hstate hgoes
    have hafter := hoperation _ _ hbefore
    rw [heq] at hafter
    exact ⟨hafter, List.forall_mem_singleton.mpr hbefore⟩
  | interrupted hgoes heq _ hpaused =>
    have hbefore := hagain _ _ hstate hgoes
    have hafter := hoperation _ _ hbefore
    rw [heq] at hafter
    exact ⟨hpause _ _ _ hafter _ _ _ _ _ hpaused, List.forall_mem_singleton.mpr hbefore⟩
  | again hgoes heq _ hpaused _ ih =>
    have hbefore := hagain _ _ hstate hgoes
    have hafter := hoperation _ _ hbefore
    rw [heq] at hafter
    obtain ⟨hend, hstarts⟩ := ih (hpause _ _ _ hafter _ _ _ _ _ hpaused)
    exact ⟨hend, List.forall_mem_cons.mpr ⟨hbefore, hstarts⟩⟩

end RetryPolicy

end Herald
