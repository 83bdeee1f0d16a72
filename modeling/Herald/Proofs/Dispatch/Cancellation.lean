import Herald.Dispatch
import Herald.Proofs.Transport.Cancellation

/-!
Dispatch after a cancellation. Transports whose turn comes too late are passed over, and each of them
counts as a failure. Nobody is asked what they prefer, and no endpoint is given anything.
-/

namespace Herald

open Timeline

/-- The transports have had their turns with a notification of a delivery that is off. -/
def Timeline.passOver (tl : Timeline) (n : Notification) (ts : List Transport) : Timeline :=
  { tl with turns := tl.turns ++ ts.map fun t => ⟨n, t.key, .calledOff⟩ }

namespace Notifier

variable {preferences : Provider} {n : Notification} {token : Token} {tl : Timeline}

/-- What counts as the failures of transports that are passed over. -/
def cancellations (ts : List Transport) : List (String × PushError) :=
  ts.map fun t => (t.key, .cancelled)

/-! ### Turns that come too late -/

theorem offers_of_isCancelled (preferences : Provider) (n : Notification)
    (h : tl.isCancelled token) (ts : List Transport) :
    offers preferences n token ts tl =
      (some (ts.map fun t => (t.key, .calledOff)), ts, tl.passOver n ts) := by
  induction ts generalizing tl with
  | nil => simp [offers, passOver]
  | cons t rest ih =>
    have hoffer : offer preferences n token (t, tl) =
        (some .calledOff, t, tl.note ⟨n, t.key, .calledOff⟩) := by
      unfold offer
      dsimp only
      rw [if_pos h]
    have hrest : (tl.note ⟨n, t.key, .calledOff⟩).isCancelled token := h
    rw [offers, hoffer]
    dsimp only
    rw [ih hrest]
    simp [passOver, note]

/-- Some transports have their turns before the others. -/
theorem offers_append (preferences : Provider) (n : Notification) (token : Token)
    (front back : List Transport) (tl : Timeline) :
    offers preferences n token (front ++ back) tl =
      match offers preferences n token front tl with
      | (none, front', tl') => (none, front' ++ back, tl')
      | (some made, front', tl') =>
        ((offers preferences n token back tl').1.map (made ++ ·),
          front' ++ (offers preferences n token back tl').2.1,
          (offers preferences n token back tl').2.2) := by
  induction front generalizing tl with
  | nil => simp [offers]
  | cons t rest ih =>
    rw [List.cons_append, offers, offers]
    split
    · rfl
    · rename_i first t' tl' _
      rw [ih tl']
      rcases offers preferences n token rest tl' with ⟨made, rest', tl''⟩
      cases made with
      | none => rfl
      | some made => simp [Option.map_map, Function.comp_def]

@[simp] theorem failures_append (offers more : List (String × Offer)) :
    failures (offers ++ more) = failures offers ++ failures more :=
  List.filterMap_append ..

@[simp] theorem failures_calledOff (ts : List Transport) :
    failures (ts.map fun t => (t.key, .calledOff)) = cancellations ts := by
  simp [failures, cancellations, List.filterMap_map, Offer.failure?]

/-- From the turn on at which the token is found cancelled, transports are passed over. -/
theorem push_of_isCancelled {notifier : Notifier} {front back front' : List Transport}
    {made : List (String × Offer)} {tl' : Timeline} (hts : notifier.transports = front ++ back)
    (hback : back ≠ [])
    (hfront : offers notifier.preferences n token front tl = (some made, front', tl'))
    (hcancelled : tl'.isCancelled token) :
    push n token (notifier, tl) =
      (some (.error ⟨failures made ++ cancellations back⟩),
        { notifier with transports := front' ++ back }, tl'.passOver n back) := by
  have hne : failures made ++ cancellations back ≠ [] := by
    simp [cancellations, hback]
  have hoffers := offers_append notifier.preferences n token front back tl
  rw [hfront] at hoffers
  dsimp only at hoffers
  rw [offers_of_isCancelled notifier.preferences n hcancelled] at hoffers
  unfold push outcome
  dsimp only
  rw [hts, hoffers]
  simp [hne]

/-! ### Turns in time -/

variable {root : Token} {due : Nat} {before : List (String × Nat × Notification)}

theorem punctual_offer (preferences : Provider) (n : Notification) (t : Transport)
    (h : Punctual root due before token tl) :
    Punctual root due before token (offer preferences n token (t, tl)).2.2 := by
  unfold offer
  dsimp only
  split
  · exact h.of_eq rfl rfl rfl rfl rfl
  · rename_i hgoes
    have hnow := h.now_le (Bool.eq_false_iff.mpr hgoes)
    have hasked : Punctual root due before token
        (if preferences.waits n t.key then tl.settle else tl) ∧
          (if preferences.waits n t.key then tl.settle else tl).now ≤ due := by
      have hsettle : Waits False tl tl.settle := Waits.refl.settle
      split
      · exact ⟨h.of_waits hsettle, by rwa [now_settle]⟩
      · exact ⟨h, hnow⟩
    split
    · exact hasked.1.of_eq rfl rfl rfl rfl rfl
    · have hnoted : Punctual root due before token
          (((if preferences.waits n t.key then tl.settle else tl).hear
            (preferences.wants n t.key)).note ⟨n, t.key, .given⟩) :=
        hasked.1.of_eq rfl rfl rfl rfl rfl
      have hpush := Transport.punctual_push n t hnoted hasked.2
      split
      all_goals
        rename_i heq
        rw [heq] at hpush
        exact hpush

theorem punctual_offers (preferences : Provider) (n : Notification) (ts : List Transport)
    (h : Punctual root due before token tl) :
    Punctual root due before token (offers preferences n token ts tl).2.2 := by
  induction ts generalizing tl with
  | nil => exact h
  | cons t rest ih =>
    have hoffer := punctual_offer preferences n t h
    unfold offers
    split
    all_goals
      rename_i heq
      rw [heq] at hoffer
    · exact hoffer
    · exact ih hoffer

theorem punctual_push (n : Notification) (notifier : Notifier)
    (h : Punctual root due before token tl) :
    Punctual root due before token (push n token (notifier, tl)).2.2 := by
  have hoffers := punctual_offers notifier.preferences n notifier.transports h
  unfold push
  dsimp only
  split
  all_goals
    rename_i heq
    rw [heq] at hoffers
  · exact hoffers
  · dsimp only
    split
    · exact hoffers.of_eq rfl rfl rfl rfl rfl
    · exact hoffers

/-! ### Cancellation at any time -/

/-- A delivery is off from an instant on, or already. No endpoint is given anything later; transports
whose turn comes later are passed over and counted as failures; and whoever has tried before does not
try again. -/
theorem nothing_begins_after_cancellation (notifier : Notifier) (n : Notification) (token : Token)
    (tl : Timeline) (due : Nat) (hbelow : token.isBelow tl.root) (hdue : tl.Pending due) :
    (∃ new, (push n token (notifier, tl)).2.2.arrivals = tl.arrivals ++ new ∧
        ∀ a ∈ new, a.2.1 ≤ due) ∧
      (tl.isCancelled token → notifier.transports ≠ [] →
        push n token (notifier, tl) = (some (.error ⟨cancellations notifier.transports⟩), notifier,
          tl.passOver n notifier.transports)) ∧
      (∀ front back made front' tl', notifier.transports = front ++ back → back ≠ [] →
        offers notifier.preferences n token front tl = (some made, front', tl') →
        tl'.isCancelled token ∨ due < tl'.now →
          push n token (notifier, tl) = (some (.error ⟨failures made ++ cancellations back⟩),
            { notifier with transports := front' ++ back }, tl'.passOver n back)) ∧
      ∀ (σ α : Type) (policy : RetryPolicy) (transport : String) (t : Token) (deadline : Option Nat)
        (operation : Course σ (Except PushError α)) (left made : Nat) (state : σ × Timeline),
        policy.Repeats transport t deadline operation left made state
            (policy.starts transport t deadline operation left made state)
            (policy.attempts transport t deadline operation left made state) ∧
          ∀ starts out, policy.Repeats transport t deadline operation left made state starts out →
            (∀ start ∈ starts, start.2.isCancelled t = false) ∧
            (∀ (front back : List (σ × Timeline)) start, starts = front ++ start :: back →
              (operation start).2.2.isCancelled t → back = []) ∧
            (state.2.isCancelled t → starts = [] ∧
              out = (some (.exhausted .cancelled made), state)) := by
  have hpunctual : Punctual tl.root due tl.arrivals token tl :=
    ⟨rfl, hbelow, hdue, [], by simp⟩
  refine ⟨(punctual_push n notifier hpunctual).arrivals, fun hcancelled hne => ?_, ?_, ?_⟩
  · have hfront : notifier.transports = [] ++ notifier.transports := rfl
    exact push_of_isCancelled hfront hne rfl hcancelled
  · intro front back made front' tl' hts hback hfront hlate
    refine push_of_isCancelled hts hback hfront ?_
    obtain hcancelled | hlate := hlate
    · exact hcancelled
    · have hoffers := punctual_offers notifier.preferences n front hpunctual
      rw [hfront] at hoffers
      by_contra hgoes
      exact Nat.not_lt.mpr (hoffers.now_le (Bool.eq_false_iff.mpr hgoes)) hlate
  · intro σ α policy transport t deadline operation left made state
    exact ⟨policy.repeats_attempts transport t deadline operation left made state,
      fun starts out hrepeats => ⟨hrepeats.isCancelled_eq_false,
        fun front back start hstarts => hrepeats.eq_nil_of_isCancelled hstarts,
        hrepeats.of_isCancelled⟩⟩

/-! An example: the first transport is slow and fails, and meanwhile the delivery is called off. -/

/-- Is tried up to three times in seconds, and each time fails after ten milliseconds. -/
def slowTransport : Transport :=
  ((Transport.ofEndpoint (.scripted "slow"
    [⟨false, 10, false, false, some (.transient, "busy")⟩] none)).wrap
      (.timeout (.ofSeconds 1))).wrap (.retry ⟨3, .constant (.ofSeconds 1)⟩)

/-- Is not reached in time. -/
def lateTransport : Transport :=
  .ofEndpoint (.scripted "late" [] none)

theorem nothing_begins_after_cancellation_sample :
    Token.delivery.isBelow (Timeline.start (some 5)).root ∧ (Timeline.start (some 5)).Pending 5 ∧
      (∃ made front' tl', offers (.always true) sampleMessage .delivery [slowTransport]
          (.start (some 5)) = (some made, front', tl') ∧ 5 < tl'.now ∧
        push sampleMessage .delivery (⟨[slowTransport, lateTransport], .always true⟩,
            .start (some 5)) =
          (some (.error ⟨failures made ++ cancellations [lateTransport]⟩),
            ⟨front' ++ [lateTransport], .always true⟩, tl'.passOver sampleMessage [lateTransport])) ∧
      ∃ new, (push sampleMessage .delivery (⟨[slowTransport, lateTransport], .always true⟩,
          .start (some 5))).2.2.arrivals = [] ++ new ∧ ∀ a ∈ new, a.2.1 ≤ 5 := by
  have hbelow : Token.delivery.isBelow (Timeline.start (some 5)).root := by decide
  have hdue : (Timeline.start (some 5)).Pending 5 := .inr ⟨rfl, by decide⟩
  obtain ⟨harrivals, -, hlate, -⟩ := nothing_begins_after_cancellation
    ⟨[slowTransport, lateTransport], .always true⟩ sampleMessage .delivery (.start (some 5)) 5
    hbelow hdue
  have hnow : 5 < (offers (.always true) sampleMessage .delivery [slowTransport]
      (.start (some 5))).2.2.now := by decide
  exact ⟨hbelow, hdue, ⟨_, _, _, rfl, hnow, hlate [slowTransport] [lateTransport] _ _ _ rfl (by simp)
    rfl (.inr hnow)⟩, harrivals⟩

end Notifier

end Herald
