import Herald.Proofs.Transport.Cancellation
import Herald.Proofs.Transport.Stack

/-!
The schedule of a retried operation. While its token is not cancelled, an operation is tried until an
outcome is final or no attempt is left, with the delays of the policy in between, in their order. What
the policy announces as the longest wait is the sum of its delays, so the pauses never exceed it, unless
the sum cannot be represented.
-/

namespace Herald

/-! ### Delays -/

namespace Duration

theorem shorter_le_right (d e : Duration) : d.shorter e ≤ e := by
  unfold shorter
  split
  · assumption
  · exact Nat.le_refl e.nanoseconds

/-- Adding up lengths of time that may saturate on the way cuts off the sum once. -/
theorem nanoseconds_foldl_add (ds : List Duration) (d : Duration) :
    (ds.foldl add d).nanoseconds =
      min (d.nanoseconds + (ds.map nanoseconds).sum) maxNanoseconds := by
  induction ds generalizing d with
  | nil => exact (Nat.min_eq_left d.le_max).symm
  | cons next ds ih =>
    have hadd : (d.add next).nanoseconds =
      min (d.nanoseconds + next.nanoseconds) maxNanoseconds := rfl
    rw [List.foldl_cons, ih, hadd, List.map_cons, List.sum_cons]
    omega

end Duration

/-- The delay is the one that is always the same, or no longer than the cap. -/
def Backoff.Allows (b : Backoff) (d : Duration) : Prop :=
  match b with
  | .constant delay => d = delay
  | .exponential _ cap _ => d ≤ cap

theorem Backoff.allows_delay (b : Backoff) (attempt : Nat) : b.Allows (b.delay attempt) := by
  cases b with
  | constant delay => rfl
  | exponential initial cap multiplier =>
    unfold Allows delay
    dsimp only
    split
    · exact Nat.zero_le _
    · split
      · exact Duration.shorter_le_right _ cap
      · exact Nat.le_refl cap.nanoseconds

namespace RetryPolicy

/-- Whether the delays are added one by one or all at once, the total is their sum or the longest
length of time. -/
theorem nanoseconds_totalDelay (p : RetryPolicy) : p.totalDelay.nanoseconds =
    min (p.delays.map Duration.nanoseconds).sum Duration.maxNanoseconds := by
  unfold totalDelay
  split
  · rename_i d hbackoff
    have hdelays : p.delays = List.replicate p.delayCount d := by
      rw [delays, hbackoff]
      exact List.map_const.trans (congrArg (List.replicate · d) List.length_range)
    rw [hdelays, List.map_replicate, List.sum_replicate_nat]
    rfl
  · rw [Duration.nanoseconds_foldl_add]
    exact congrArg (min · _) (Nat.zero_add _)

end RetryPolicy

/-! ### Pauses that nobody interrupts -/

namespace Timeline

variable {token : Token} {tl tl' : Timeline} {due : Nat}

@[simp] theorem pauses_settle (tl : Timeline) : tl.settle.pauses = tl.pauses := by
  unfold settle
  split
  · split <;> rfl
  · rfl

@[simp] theorem pauses_settleAt (tl : Timeline) (instant : Nat) :
    (tl.settleAt instant).pauses = tl.pauses :=
  (pauses_settle _).trans (pauses_settle tl)

@[simp] theorem pauses_advance (tl : Timeline) (instant : Nat) :
    (tl.advance instant).pauses = tl.pauses := by
  unfold advance
  split
  · rfl
  · dsimp only
    split
    · split
      · exact (pauses_settleAt _ _).trans (pauses_settle tl)
      · exact pauses_settle tl
    · exact pauses_settle tl

@[simp] theorem pauses_rest (tl : Timeline) (ticks : Nat) (token : Token) (deadline : Option Nat) :
    (tl.rest ticks token deadline).2.pauses = tl.pauses := by
  unfold rest
  split
  · rfl
  · split
    · exact pauses_settleAt tl _
    · exact pauses_advance tl _

theorem pauses_pause (tl : Timeline) (length : Duration) (token : Token) (deadline : Option Nat) :
    (tl.pause length token deadline).2.pauses = tl.pauses ++ [length] :=
  pauses_rest _ _ _ _

theorem isCancelled_settle_of_le (hdue : tl.due = some due) (h : due ≤ tl.now) :
    tl.settle.isCancelled tl.root := by
  unfold settle
  rw [hdue]
  dsimp only
  rw [if_pos h]
  exact isCancelled_cancel_self _ tl.root

theorem isCancelled_settleAt (hdue : tl.due = some due) {instant : Nat} (h : due ≤ instant) :
    (tl.settleAt instant).isCancelled tl.root := by
  have hpass := passes_settle tl.root { tl.settle with now := max tl.now instant }
  by_cases hnow : due ≤ tl.now
  · exact hpass.toFollows.isCancelled (isCancelled_settle_of_le hdue hnow)
  · have hsettle : tl.settle.due = some due := by
      unfold settle
      rw [hdue]
      dsimp only
      rw [if_neg hnow]
      exact hdue
    have hlater : due ≤ { tl.settle with now := max tl.now instant }.now :=
      Nat.le_trans h (Nat.le_max_right _ _)
    rw [← root_settle tl]
    exact isCancelled_settle_of_le hsettle hlater

/-- Whoever is called off while pausing finds the token cancelled. -/
theorem isCancelled_pause {length : Duration} {deadline : Option Nat}
    (h : tl.pause length token deadline = (.cancelled, tl')) : tl'.isCancelled token := by
  unfold pause rest at h
  split at h
  · rename_i hcancelled
    cases h
    exact hcancelled
  · split at h
    · rename_i instant hcalledOff
      cases h
      obtain ⟨hbelow, ⟨due, hdue, rfl⟩, -⟩ := calledOff?_eq_some hcalledOff
      exact isCancelled_of_isBelow hbelow (isCancelled_settleAt hdue (Nat.le_max_right _ _))
    · dsimp only at h
      split at h <;> cases h

end Timeline

/-! ### Attempts -/

open Timeline

/-- The operation answers its calls as the script says, one after another. `calls` tells from a state
how many there have been; pauses that the operation asks for itself are its own. -/
structure Course.Plays {σ α : Type} (operation : Course σ (Except PushError α))
    (script : Nat → Except PushError α) (calls : σ → Nat) (own : Nat → List Duration) : Prop where
  result_eq : ∀ s tl, (operation (s, tl)).1 = some (script (calls s))
  calls_eq : ∀ s tl, calls (operation (s, tl)).2.1 = calls s + 1
  pauses_eq : ∀ s tl, (operation (s, tl)).2.2.pauses = tl.pauses ++ own (calls s)

theorem Course.Plays.of_eq {σ α : Type} {operation : Course σ (Except PushError α)}
    {script : Nat → Except PushError α} {calls : σ → Nat} {own : Nat → List Duration}
    (h : operation.Plays script calls own) {s s' : σ} {tl tl' : Timeline}
    {result : Option (Except PushError α)} (heq : operation (s, tl) = (result, s', tl')) :
    result = some (script (calls s)) ∧ calls s' = calls s + 1 ∧
      tl'.pauses = tl.pauses ++ own (calls s) := by
  have hresult := h.result_eq s tl
  have hcalls := h.calls_eq s tl
  have hpauses := h.pauses_eq s tl
  rw [heq] at hresult hcalls hpauses
  exact ⟨hresult, hcalls, hpauses⟩

/-- The plainest operation that plays a script: its state counts the calls, and each call takes its
time. -/
def Course.scripted {α : Type} (script : Nat → Except PushError α) (ticks : Nat → Nat) :
    Course Nat (Except PushError α) :=
  fun (calls, tl) => (some (script calls), calls + 1, (tl.sleep (ticks calls) none).2)

theorem Course.plays_scripted {α : Type} (script : Nat → Except PushError α) (ticks : Nat → Nat) :
    (scripted script ticks).Plays script id fun _ => [] where
  result_eq _ _ := rfl
  calls_eq _ _ := rfl
  pauses_eq _ tl := (pauses_advance tl _).trans (List.append_nil tl.pauses).symm

/-- What a final outcome makes of the attempts. -/
def Retried.ofFinal {α : Type} : Except PushError α → Retried α
  | .ok a => .success a
  | .error e => .permanent e

/-- This outcome is the first one that is final. -/
def IsFirstFinal {α : Type} (script : Nat → Except PushError α) (k : Nat) : Prop :=
  IsFinal (script k) ∧ ∀ j < k, ¬IsFinal (script j)

/-- There is only one such outcome. -/
theorem IsFirstFinal.eq {α : Type} {script : Nat → Except PushError α} {j k : Nat}
    (hj : IsFirstFinal script j) (hk : IsFirstFinal script k) : j = k :=
  Nat.le_antisymm (Nat.le_of_not_lt fun hlt => hj.2 k hlt hk.1)
    (Nat.le_of_not_lt fun hlt => hk.2 j hlt hj.1)

namespace RetryPolicy

variable {σ α : Type}

theorem isFinal_ok (a : α) : IsFinal (.ok a) := by
  intro e h
  cases h

theorem isFinal_error {e : PushError} (h : e.permanent) :
    IsFinal (.error e : Except PushError α) := by
  intro e' he
  cases he
  exact h

theorem not_isFinal {e : PushError} (h : e.permanent = false) :
    ¬IsFinal (.error e : Except PushError α) := by
  intro hfinal
  rw [hfinal e rfl] at h
  cases h

/-- The pauses of a series of calls, from the call with this number on: each call asks for its own, and
a delay lies between it and the next one. -/
def asked (own : Nat → List Duration) : (delays : List Duration) → (call : Nat) → List Duration
  | [], call => own call
  | d :: ds, call => own call ++ d :: asked own ds (call + 1)

theorem asked_of_none (ds : List Duration) (call : Nat) : asked (fun _ => []) ds call = ds := by
  induction ds generalizing call with
  | nil => rfl
  | cons d ds ih => exact congrArg (d :: ·) (ih (call + 1))

/-- The delays between the calls from one number to another. -/
def delaysFrom (p : RetryPolicy) (call last : Nat) : List Duration :=
  (List.range' call (last - call)).map p.backoff.delay

@[simp] theorem delaysFrom_self (p : RetryPolicy) (call : Nat) : p.delaysFrom call call = [] := by
  rw [delaysFrom, Nat.sub_self]
  rfl

theorem delaysFrom_of_lt (p : RetryPolicy) {call last : Nat} (h : call < last) :
    p.delaysFrom call last = p.backoff.delay call :: p.delaysFrom (call + 1) last := by
  have hsub : last - call = last - (call + 1) + 1 := by omega
  rw [delaysFrom, hsub, List.range'_succ]
  rfl

theorem delaysFrom_zero (p : RetryPolicy) {last : Nat} (h : last ≤ p.delayCount) :
    p.delaysFrom 0 last = p.delays.take last := by
  rw [← firstDelays_eq_take, firstDelays, Nat.min_eq_left h, List.range_eq_range']
  rfl

/-- The attempts, with `left` to come after the next one and `made` behind, end with a call that is the
first one with a final outcome, or the last one allowed. -/
structure EndsAt (p : RetryPolicy) (script : Nat → Except PushError α) (own : Nat → List Duration)
    (left made : Nat) (result : Option (Retried α)) (calls : Nat) (pauses : List Duration)
    (last : Nat) : Prop where
  made_le : made ≤ last
  le : last ≤ made + left
  transient : ∀ k, made ≤ k → k < last → ¬IsFinal (script k)
  ends : IsFinal (script last) ∧ result = some (.ofFinal (script last)) ∨
    ∃ e, script last = .error e ∧ e.permanent = false ∧ last = made + left ∧
      result = some (.exhausted e (last + 1))
  calls_eq : calls = last + 1
  pauses_eq : pauses = asked own (p.delaysFrom made last) made

variable {p : RetryPolicy} {operation : Course σ (Except PushError α)}
  {script : Nat → Except PushError α} {calls : σ → Nat} {own : Nat → List Duration}

/-- One call that ends the attempts. -/
theorem EndsAt.of_last {left made : Nat} {result : Option (Retried α)}
    (hends : IsFinal (script made) ∧ result = some (.ofFinal (script made)) ∨
      ∃ e, script made = .error e ∧ e.permanent = false ∧ left = 0 ∧
        result = some (.exhausted e (made + 1))) :
    p.EndsAt script own left made result (made + 1) (own made) made where
  made_le := Nat.le_refl made
  le := Nat.le_add_right made left
  transient k hle hlt := absurd hlt (Nat.not_lt.mpr hle)
  ends := by
    obtain hfinal | ⟨e, he, htransient, rfl, hresult⟩ := hends
    · exact .inl hfinal
    · exact .inr ⟨e, he, htransient, rfl, hresult⟩
  calls_eq := rfl
  pauses_eq := by
    rw [delaysFrom_self]
    rfl

/-- One call more before the others, and the delay after it. -/
theorem EndsAt.cons {left made last calls : Nat} {result : Option (Retried α)}
    {pauses : List Duration} (htransient : ¬IsFinal (script made))
    (h : p.EndsAt script own left (made + 1) result calls pauses last) :
    p.EndsAt script own (left + 1) made result calls
      (own made ++ p.backoff.delay made :: pauses) last where
  made_le := Nat.le_of_succ_le h.made_le
  le := by
    have hle := h.le
    omega
  transient k hle hlt := by
    obtain rfl | hmade := Nat.eq_or_lt_of_le hle
    · exact htransient
    · exact h.transient k hmade hlt
  ends := by
    obtain hfinal | ⟨e, he, hpermanent, hlast, hresult⟩ := h.ends
    · exact .inl hfinal
    · exact .inr ⟨e, he, hpermanent, by omega, hresult⟩
  calls_eq := h.calls_eq
  pauses_eq := by
    rw [p.delaysFrom_of_lt h.made_le, h.pauses_eq]
    rfl

/-- By induction on the attempts left: a pause that is not cancelled elapses, so the next attempt
follows. -/
theorem exists_endsAt (transport : String) {token : Token} (hplays : operation.Plays script calls own)
    (left made : Nat) (state : σ × Timeline) (hcalls : calls state.1 = made)
    (hgoes : (p.attempts transport token none operation left made state).2.2.isCancelled token =
      false) :
    ∃ last pauses, p.EndsAt script own left made
        (p.attempts transport token none operation left made state).1
        (calls (p.attempts transport token none operation left made state).2.1) pauses last ∧
      (p.attempts transport token none operation left made state).2.2.pauses =
        state.2.pauses ++ pauses := by
  fun_induction p.attempts transport token none operation left made state with
  | case1 _ _ s tl hcancelled => exact absurd hcancelled (Bool.eq_false_iff.mp hgoes)
  | case2 _ _ s tl _ s' tl' heq => cases (hplays.of_eq heq).1
  | case3 _ _ s tl _ a s' tl' heq =>
    obtain ⟨hresult, hcalls', hpauses⟩ := hplays.of_eq heq
    subst hcalls
    refine ⟨calls s, own (calls s), ?_, hpauses⟩
    rw [hcalls']
    refine .of_last (.inl ?_)
    rw [← Option.some.inj hresult]
    exact ⟨isFinal_ok a, rfl⟩
  | case4 _ _ s tl _ e s' tl' heq hpermanent =>
    obtain ⟨hresult, hcalls', hpauses⟩ := hplays.of_eq heq
    subst hcalls
    refine ⟨calls s, own (calls s), ?_, hpauses⟩
    rw [hcalls']
    refine .of_last (.inl ?_)
    rw [← Option.some.inj hresult]
    exact ⟨isFinal_error hpermanent, rfl⟩
  | case5 _ s tl _ e s' tl' heq hpermanent =>
    obtain ⟨hresult, hcalls', hpauses⟩ := hplays.of_eq heq
    subst hcalls
    refine ⟨calls s, own (calls s), ?_, hpauses⟩
    rw [hcalls']
    exact .of_last (.inr ⟨e, (Option.some.inj hresult).symm, Bool.eq_false_iff.mpr hpermanent, rfl,
      rfl⟩)
  | case6 _ s tl _ e s' tl' heq _ _ _ tl'' hpaused =>
    exact absurd (isCancelled_pause hpaused) (Bool.eq_false_iff.mp hgoes)
  | case7 _ s tl _ e s' tl' heq _ _ _ tl'' hpaused =>
    exact absurd (congrArg Prod.fst hpaused) (rest_ne_cut _ _ token)
  | case8 left s tl _ e s' tl' heq hpermanent _ _ tl'' hpaused ih =>
    obtain ⟨hresult, hcalls', hpauses⟩ := hplays.of_eq heq
    subst hcalls
    obtain ⟨last, pauses, hends, hmore⟩ := ih hcalls' hgoes
    have htransient : ¬IsFinal (script (calls s)) := by
      rw [← Option.some.inj hresult]
      exact not_isFinal (Bool.eq_false_iff.mpr hpermanent)
    refine ⟨last, _, hends.cons htransient, ?_⟩
    have hasked := pauses_pause (p.reportRetry transport (calls s + 1) e tl')
      (p.backoff.delay (calls s)) token none
    rw [hpaused] at hasked
    have hreport : (p.reportRetry transport (calls s + 1) e tl').pauses = tl'.pauses := rfl
    rw [hmore, hasked, hreport, hpauses]
    simp only [List.append_assoc, List.cons_append, List.nil_append]

/-! ### The schedule -/

/-- The delays of a policy, and what it announces as the longest wait. -/
structure IsScheduled (p : RetryPolicy) : Prop where
  length_delays : p.delays.length = max 1 p.tries - 1
  allows : ∀ d ∈ p.delays, p.backoff.Allows d
  totalDelay_eq : p.totalDelay.nanoseconds =
    min (p.delays.map Duration.nanoseconds).sum Duration.maxNanoseconds

theorem isScheduled (p : RetryPolicy) : p.IsScheduled where
  length_delays := by
    rw [p.length_delays, delayCount]
    omega
  allows d hd := by
    obtain ⟨k, -, rfl⟩ := List.mem_map.mp hd
    exact p.backoff.allows_delay k
  totalDelay_eq := p.nanoseconds_totalDelay

/-- The first delays do not take longer than all of them. -/
theorem sum_take_delays_le (p : RetryPolicy) (n : Nat) :
    ((p.delays.take n).map Duration.nanoseconds).sum ≤ p.totalDelay.nanoseconds ∨
      p.totalDelay = .longest := by
  have htake := ((List.take_sublist n p.delays).map Duration.nanoseconds).sum_le_sum
    fun _ _ => Nat.zero_le _
  obtain hlt | hle := Nat.lt_or_ge Duration.maxNanoseconds (p.delays.map Duration.nanoseconds).sum
  · right
    ext
    rw [p.nanoseconds_totalDelay, Nat.min_eq_right (Nat.le_of_lt hlt)]
    exact (Nat.min_self _).symm
  · rw [p.nanoseconds_totalDelay, Nat.min_eq_left hle]
    exact .inl htake

/-- How an operation that plays a script is repeated. The calls end with the first final outcome, or with
the last one that the policy allows; between them it asks for the first delays, each after the call it
belongs to. -/
structure Serves (p : RetryPolicy) (script : Nat → Except PushError α) (own : Nat → List Duration)
    (result : Option (Retried α)) (calls : Nat) (pauses : List Duration) : Prop where
  calls_of_first : ∀ k, IsFirstFinal script k → calls = min (k + 1) (max 1 p.tries)
  calls_of_none : (∀ k, ¬IsFinal (script k)) → calls = max 1 p.tries
  result_of_first : ∀ k, IsFirstFinal script k → k + 1 ≤ max 1 p.tries →
    result = some (.ofFinal (script k))
  result_of_later : (∀ k, k + 1 ≤ max 1 p.tries → ¬IsFinal (script k)) →
    ∃ e, script (max 1 p.tries - 1) = .error e ∧ result = some (.exhausted e (max 1 p.tries))
  pauses_eq : pauses = asked own (p.delays.take (calls - 1)) 0
  isScheduled : p.IsScheduled
  sum_le : ((p.delays.take (calls - 1)).map Duration.nanoseconds).sum ≤ p.totalDelay.nanoseconds ∨
    p.totalDelay = .longest

/-- Which of the calls is the last one. -/
theorem EndsAt.cases {tries n last : Nat} {result : Option (Retried α)} {pauses : List Duration}
    (h : p.EndsAt script own (max 1 tries - 1) 0 result n pauses last) :
    (IsFirstFinal script last ∧ last + 1 ≤ max 1 tries ∧ result = some (.ofFinal (script last))) ∨
      ((∀ k, k + 1 ≤ max 1 tries → ¬IsFinal (script k)) ∧ last + 1 = max 1 tries ∧
        ∃ e, script last = .error e ∧ result = some (.exhausted e (last + 1))) := by
  have hle := h.le
  obtain ⟨hfinal, hresult⟩ | ⟨e, he, htransient, hlast, hresult⟩ := h.ends
  · exact .inl ⟨⟨hfinal, fun k => h.transient k (Nat.zero_le k)⟩, by omega, hresult⟩
  · refine .inr ⟨fun k hk => ?_, by omega, e, he, hresult⟩
    obtain hlt | rfl : k < last ∨ k = last := by omega
    · exact h.transient k (Nat.zero_le k) hlt
    · rw [he]
      exact not_isFinal htransient

theorem EndsAt.serves {n last : Nat} {result : Option (Retried α)} {pauses : List Duration}
    (h : p.EndsAt script own (max 1 p.tries - 1) 0 result n pauses last) :
    p.Serves script own result n pauses where
  calls_of_first k hfirst := by
    rw [h.calls_eq]
    obtain ⟨hlast, hle, -⟩ | ⟨hnone, hlast, -⟩ := h.cases
    · rw [hfirst.eq hlast, Nat.min_eq_left hle]
    · have hlater : ¬k + 1 ≤ max 1 p.tries := fun hk => hnone k hk hfirst.1
      omega
  calls_of_none hnone := by
    rw [h.calls_eq]
    obtain ⟨hlast, -⟩ | ⟨-, hlast, -⟩ := h.cases
    · exact absurd hlast.1 (hnone last)
    · exact hlast
  result_of_first k hfirst hk := by
    obtain ⟨hlast, -, hresult⟩ | ⟨hnone, -⟩ := h.cases
    · rw [hfirst.eq hlast, hresult]
    · exact absurd hfirst.1 (hnone k hk)
  result_of_later hlater := by
    obtain ⟨hlast, hle, -⟩ | ⟨-, hlast, hresult⟩ := h.cases
    · exact absurd hlast.1 (hlater last hle)
    · rw [← hlast]
      exact hresult
  pauses_eq := by
    have hle := h.le
    rw [h.pauses_eq, p.delaysFrom_zero, h.calls_eq, Nat.add_sub_cancel]
    rw [delayCount]
    omega
  isScheduled := p.isScheduled
  sum_le := p.sum_take_delays_le _

/-- An operation that plays a script is repeated as the policy schedules it, whatever the time it takes,
if nobody cancels the token. A token stays cancelled, so it is enough that it is good in the end. -/
theorem run_serves_schedule (p : RetryPolicy) (transport : String) (token : Token)
    {operation : Course σ (Except PushError α)} {script : Nat → Except PushError α}
    {calls : σ → Nat} {own : Nat → List Duration} (hplays : operation.Plays script calls own)
    (s : σ) (tl : Timeline) (hcalls : calls s = 0)
    (hgoes : (p.run transport token none operation (s, tl)).2.2.isCancelled token = false) :
    ∃ pauses, (p.run transport token none operation (s, tl)).2.2.pauses = tl.pauses ++ pauses ∧
      p.Serves script own (p.run transport token none operation (s, tl)).1
        (calls (p.run transport token none operation (s, tl)).2.1) pauses := by
  obtain ⟨last, pauses, hends, hpauses⟩ :=
    exists_endsAt transport hplays (max 1 p.tries - 1) 0 (s, tl) hcalls hgoes
  exact ⟨pauses, hpauses, hends.serves⟩

/-- Fails for a while, and then for good. -/
def failingScript (k : Nat) : Except PushError Unit :=
  if k < 2 then .error (.transient "busy") else .error (.lasting "unknown recipient")

/-- Four attempts at most, a second apart; each of them takes 40 milliseconds. -/
def failingRun : Course Nat (Retried Unit) :=
  run ⟨4, .constant (.ofSeconds 1)⟩ "mail" .delivery none (.scripted failingScript fun _ => 40)

theorem run_serves_schedule_sample :
    (Course.scripted failingScript fun _ => 40).Plays failingScript id (fun _ => []) ∧
      (failingRun (0, .start none)).2.2.isCancelled .delivery = false ∧
      (failingRun (0, .start none)).1 = some (.permanent (.lasting "unknown recipient")) ∧
      (failingRun (0, .start none)).2.1 = 3 ∧
      (failingRun (0, .start none)).2.2.pauses = [.ofSeconds 1, .ofSeconds 1] := by
  have hplays := Course.plays_scripted failingScript fun _ => 40
  have hfirst : IsFirstFinal failingScript 2 := by
    refine ⟨isFinal_error rfl, fun j hj => ?_⟩
    rw [failingScript, if_pos hj]
    exact not_isFinal rfl
  have hgoes : (failingRun (0, .start none)).2.2.isCancelled .delivery = false := by
    decide +kernel
  obtain ⟨pauses, hpauses, hserves⟩ :=
    run_serves_schedule ⟨4, .constant (.ofSeconds 1)⟩ "mail" .delivery hplays 0 (.start none) rfl hgoes
  have hcalls := hserves.calls_of_first 2 hfirst
  rw [hserves.pauses_eq, hcalls, asked_of_none] at hpauses
  exact ⟨hplays, hgoes, hserves.result_of_first 2 hfirst (by decide), hcalls, hpauses⟩

end RetryPolicy

end Herald
