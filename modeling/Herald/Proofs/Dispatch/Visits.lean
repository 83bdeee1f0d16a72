import Herald.Proofs.Dispatch
import Herald.Proofs.Transport.Waiting

/-!
What a dispatch reports. It is told as the visits that transports are paid, one after another; results,
failures and the warning that nothing was attempted are all read off these visits.
-/

namespace Herald

/-- A visit to a transport, with the transport and the timeline before and after it. Nothing comes of a
visit to a transport that waits for ever. -/
structure Visit where
  transport : Transport
  reached : Timeline
  offer : Option Offer
  after : Transport
  left : Timeline

namespace Visit

section

variable (v : Visit) (preferences : Provider) (n : Notification) (token : Token)

/-- The transport is reached after the cancellation. -/
def IsLate : Prop :=
  v.reached.isCancelled token = true

/-- The recipient does not want the notification over this transport. -/
def IsUnwanted : Prop :=
  (preferences.wants n v.transport.key).value = some false

/-- The transport is given the notification: it is reached in time, and nobody minds. -/
def IsInvoked : Prop :=
  ¬v.IsLate token ∧ ¬v.IsUnwanted preferences n

/-- The push by which the transport was given the notification failed so. -/
def FailedWith (e : PushError) : Prop :=
  v.offer = some (.pushed (.error e))

/-- What the visit adds to the failures of the dispatch. -/
def failure? : Option (String × PushError) :=
  (v.offer.bind Offer.failure?).map fun e => (v.transport.key, e)

/-- The record that the visit leaves. -/
def turn (fate : Fate) : Turn :=
  ⟨n, v.transport.key, fate⟩

/-- The timeline once the preferences have been asked. -/
def asked : Timeline :=
  (if preferences.waits n v.transport.key then v.reached.settle else v.reached).hear
    (preferences.wants n v.transport.key)

/-- All of the visit is a single push, by which the transport is given the notification. -/
def Pushes : Prop :=
  ∃ result, Transport.push n token (v.transport, (v.asked preferences n).note (v.turn n .given)) =
    (result, v.after, v.left) ∧ v.offer = result.map .pushed

/-- The transport stays as it was, and no endpoint is given anything. -/
structure PassesBy : Prop where
  after_eq : v.after = v.transport
  arrivals_eq : v.left.arrivals = v.reached.arrivals

/-- Token and preferences decide what happens in a visit. A transport that is invoked gets a single push,
from which all of the visit follows; the others stay as they are. -/
structure Heeds : Prop where
  late : v.IsLate token → v.offer = some .calledOff ∧ v.after = v.transport ∧
    v.left = v.reached.note (v.turn n .calledOff)
  unwanted : ¬v.IsLate token → v.IsUnwanted preferences n → v.offer = some .declined ∧
    v.after = v.transport ∧
    v.left = ((v.asked preferences n).note (v.turn n .declined)).report .debug "Recipient opted out"
      [("transport", v.transport.key), ("to", n.recipient.text)]
  invoked : v.IsInvoked preferences n token → v.Pushes preferences n token

end

/-- Visits one after another: each begins where the one before it has ended. -/
inductive InTurn : Timeline → List Visit → Timeline → Prop
  | done {tl : Timeline} : InTurn tl [] tl
  | next {v : Visit} {visits : List Visit} {tl : Timeline} (h : InTurn v.left visits tl) :
      InTurn v.reached (v :: visits) tl

namespace Heeds

variable {v : Visit} {preferences : Provider} {n : Notification} {token : Token}

theorem cases (h : v.Heeds preferences n token) :
    v.IsLate token ∧ v.offer = some .calledOff ∨
      (¬v.IsLate token ∧ v.IsUnwanted preferences n) ∧ v.offer = some .declined ∨
      v.IsInvoked preferences n token ∧
        ∀ offer, v.offer = some offer → ∃ result, offer = .pushed result := by
  by_cases hlate : v.IsLate token
  · exact .inl ⟨hlate, (h.late hlate).1⟩
  · by_cases hunwanted : v.IsUnwanted preferences n
    · exact .inr (.inl ⟨⟨hlate, hunwanted⟩, (h.unwanted hlate hunwanted).1⟩)
    · refine .inr (.inr ⟨⟨hlate, hunwanted⟩, fun offer hoffer => ?_⟩)
      obtain ⟨result, -, hresult⟩ := h.invoked ⟨hlate, hunwanted⟩
      rw [hresult, Option.map_eq_some_iff] at hoffer
      obtain ⟨result', -, rfl⟩ := hoffer
      exact ⟨result', rfl⟩

/-- Nothing but an invocation is a push. -/
theorem pushes_iff (h : v.Heeds preferences n token) :
    v.Pushes preferences n token ↔ v.IsInvoked preferences n token := by
  refine ⟨?_, h.invoked⟩
  rintro ⟨result, -, hpushed⟩
  obtain ⟨-, hoffer⟩ | ⟨-, hoffer⟩ | ⟨hinvoked, -⟩ := h.cases
  · rw [hoffer] at hpushed
    cases result <;> cases hpushed
  · rw [hoffer] at hpushed
    cases result <;> cases hpushed
  · exact hinvoked

theorem calledOff_iff (h : v.Heeds preferences n token) :
    v.offer = some .calledOff ↔ v.IsLate token := by
  obtain ⟨hlate, hoffer⟩ | ⟨⟨hlate, -⟩, hoffer⟩ | ⟨⟨hlate, -⟩, hpushed⟩ := h.cases
  · simp [hlate, hoffer]
  · simp [hlate, hoffer]
  · simp only [hlate, iff_false]
    intro hoffer
    obtain ⟨result, hresult⟩ := hpushed _ hoffer
    cases hresult

theorem declined_iff (h : v.Heeds preferences n token) :
    v.offer = some .declined ↔ ¬v.IsLate token ∧ ¬v.IsInvoked preferences n token := by
  obtain ⟨hlate, hoffer⟩ | ⟨⟨hlate, hunwanted⟩, hoffer⟩ | ⟨hinvoked, hpushed⟩ := h.cases
  · simp [hlate, hoffer]
  · simp [hlate, hunwanted, hoffer, IsInvoked]
  · simp only [hinvoked, not_true, and_false, iff_false]
    intro hoffer
    obtain ⟨result, hresult⟩ := hpushed _ hoffer
    cases hresult

theorem failure?_eq_some_iff (h : v.Heeds preferences n token) {key : String} {e : PushError} :
    v.failure? = some (key, e) ↔ v.transport.key = key ∧
      (v.IsLate token ∧ e = .cancelled ∨ v.FailedWith e) := by
  rw [← h.calledOff_iff]
  unfold failure? FailedWith
  rcases v.offer with _ | _ | _ | _ | e'
  all_goals simp [Offer.failure?, eq_comm, and_comm]

end Heeds

end Visit

/-! ### Rounds -/

namespace Visit

/-- What was done with the transport. -/
def fate (v : Visit) : Fate :=
  match v.offer with
  | some .calledOff => .calledOff
  | some .declined => .declined
  | _ => .given

/-- The visits that some transports are paid in a round, which ends early at a transport that waits for
ever; the transports after it are not visited. -/
inductive Round (preferences : Provider) (n : Notification) (token : Token) :
    List Transport → Timeline → List Visit → List Transport → Timeline → Prop
  | done {tl : Timeline} : Round preferences n token [] tl [] [] tl
  | endless {v : Visit} {rest : List Transport} (h : v.Heeds preferences n token)
      (hnone : v.offer = none) :
      Round preferences n token (v.transport :: rest) v.reached [v] rest v.left
  | next {v : Visit} {rest unvisited : List Transport} {visits : List Visit} {tl : Timeline}
      (h : v.Heeds preferences n token) (hsome : v.offer.isSome)
      (hrest : Round preferences n token rest v.left visits unvisited tl) :
      Round preferences n token (v.transport :: rest) v.reached (v :: visits) unvisited tl

/-- What came of the visits, if something came of each of them. -/
def offers (visits : List Visit) : Option (List (String × Offer)) :=
  visits.mapM fun v => v.offer.map fun o => (v.transport.key, o)

section

variable {v : Visit} {preferences : Provider} {n : Notification} {token : Token}
  {ts unvisited : List Transport} {visits : List Visit} {tl tl' : Timeline}

theorem Heeds.key_eq (h : v.Heeds preferences n token) : v.after.key = v.transport.key := by
  by_cases hlate : v.IsLate token
  · rw [(h.late hlate).2.1]
  · by_cases hunwanted : v.IsUnwanted preferences n
    · rw [(h.unwanted hlate hunwanted).2.1]
    · obtain ⟨result, hpush, -⟩ := h.invoked ⟨hlate, hunwanted⟩
      exact ((Transport.keeps_push n token).of_eq hpush).1

@[simp] theorem arrivals_asked (v : Visit) (preferences : Provider) (n : Notification) :
    (v.asked preferences n).arrivals = v.reached.arrivals := by
  unfold asked
  split
  · exact v.reached.arrivals_settle
  · rfl

theorem Heeds.passesBy (h : v.Heeds preferences n token)
    (hspared : ¬v.IsInvoked preferences n token) : v.PassesBy := by
  by_cases hlate : v.IsLate token
  · obtain ⟨-, hafter, hleft⟩ := h.late hlate
    exact ⟨hafter, by rw [hleft]; rfl⟩
  · have hunwanted : v.IsUnwanted preferences n := Classical.byContradiction fun hwanted =>
      hspared ⟨hlate, hwanted⟩
    obtain ⟨-, hafter, hleft⟩ := h.unwanted hlate hunwanted
    refine ⟨hafter, ?_⟩
    rw [hleft, ← v.arrivals_asked preferences n]
    rfl

theorem Heeds.fate_eq_given_iff (h : v.Heeds preferences n token) :
    v.fate = .given ↔ v.IsInvoked preferences n token := by
  have hlate := h.calledOff_iff
  have hdeclined := h.declined_iff
  unfold fate
  rcases hoffer : v.offer with _ | _ | _ | _
  all_goals
    rw [hoffer] at hlate hdeclined
    simp_all [IsInvoked]

/-- A visit adds a turn, and no work within it adds another one. -/
theorem Heeds.turns_eq (h : v.Heeds preferences n token) :
    v.left.turns = v.reached.turns ++ [v.turn n v.fate] := by
  have hasked : (v.asked preferences n).turns = v.reached.turns := by
    have hsettle := Timeline.passes_settle token v.reached
    unfold asked
    split
    · exact hsettle.turns
    · rfl
  by_cases hlate : v.IsLate token
  · obtain ⟨hoffer, -, hleft⟩ := h.late hlate
    simp [hleft, fate, hoffer, Timeline.note]
  · by_cases hunwanted : v.IsUnwanted preferences n
    · obtain ⟨hoffer, -, hleft⟩ := h.unwanted hlate hunwanted
      simp [hleft, fate, hoffer, Timeline.note, Timeline.report, hasked]
    · have hgiven := h.fate_eq_given_iff.mpr ⟨hlate, hunwanted⟩
      obtain ⟨result, hpush, -⟩ := h.invoked ⟨hlate, hunwanted⟩
      have hpasses := ((Transport.keeps_push n token).of_eq hpush).2
      rw [hgiven, hpasses.turns]
      simp [Timeline.note, hasked]

theorem Heeds.isLate (h : v.Heeds preferences n token) (hlate : v.IsLate token) :
    v.left.isCancelled token := by
  rw [(h.late hlate).2.2]
  exact hlate

/-- The visit that the dispatcher pays to a transport. -/
def pay (preferences : Provider) (n : Notification) (token : Token) (t : Transport)
    (tl : Timeline) : Visit :=
  let out := Notifier.offer preferences n token (t, tl)
  ⟨t, tl, out.1, out.2.1, out.2.2⟩

theorem heeds_pay (preferences : Provider) (n : Notification) (token : Token) (t : Transport)
    (tl : Timeline) : (pay preferences n token t tl).Heeds preferences n token where
  late hlate := by
    unfold IsLate at hlate
    simp_all [pay, Notifier.offer, turn]
  unwanted hlate hunwanted := by
    unfold IsLate at hlate
    unfold IsUnwanted at hunwanted
    simp_all [pay, Notifier.offer, turn, asked]
  invoked hinvoked := by
    obtain ⟨hlate, hunwanted⟩ := hinvoked
    unfold IsLate at hlate
    unfold IsUnwanted at hunwanted
    unfold Pushes
    simp only [pay, Notifier.offer, turn, asked] at hlate hunwanted ⊢
    rw [if_neg hlate, if_neg hunwanted]
    rcases Transport.push n token _ with ⟨_ | result, t', tl'⟩
    · exact ⟨none, rfl, rfl⟩
    · exact ⟨some result, rfl, rfl⟩

theorem offers_cons (v : Visit) (visits : List Visit) :
    offers (v :: visits) =
      (v.offer.map fun o => (v.transport.key, o)).bind fun o => (offers visits).map (o :: ·) := by
  unfold offers
  rw [List.mapM_cons]
  cases v.offer with
  | none => rfl
  | some o => cases visits.mapM fun v => v.offer.map fun o => (v.transport.key, o) <;> rfl

theorem exists_round (preferences : Provider) (n : Notification) (token : Token)
    (ts : List Transport) (tl : Timeline) : ∃ visits unvisited tl',
      Round preferences n token ts tl visits unvisited tl' ∧
      Notifier.offers preferences n token ts tl =
        (offers visits, visits.map Visit.after ++ unvisited, tl') := by
  induction ts generalizing tl with
  | nil => exact ⟨[], [], tl, .done, rfl⟩
  | cons t rest ih =>
    have hv := heeds_pay preferences n token t tl
    have hoffer : Notifier.offer preferences n token (t, tl) =
        ((pay preferences n token t tl).offer, (pay preferences n token t tl).after,
          (pay preferences n token t tl).left) := rfl
    rw [Notifier.offers, hoffer]
    generalize hpay : pay preferences n token t tl = v at hv
    obtain ⟨rfl, rfl⟩ : v.transport = t ∧ v.reached = tl := by
      rw [← hpay]
      exact ⟨rfl, rfl⟩
    cases hsome : v.offer with
    | none => exact ⟨[v], rest, v.left, .endless hv hsome, by simp [offers, hsome]⟩
    | some first =>
      obtain ⟨visits, unvisited, tl', hround, hrest⟩ := ih v.left
      refine ⟨v :: visits, unvisited, tl', .next hv (by simp [hsome]) hround, ?_⟩
      simp only [hrest, offers_cons, hsome, hv.key_eq]
      rfl

namespace Round

theorem heeds (h : Round preferences n token ts tl visits unvisited tl') :
    ∀ v ∈ visits, v.Heeds preferences n token := by
  induction h with
  | done => simp
  | endless hv => simpa using hv
  | next hv _ _ ih => simpa using ⟨hv, ih⟩

theorem visited (h : Round preferences n token ts tl visits unvisited tl') :
    ts = visits.map Visit.transport ++ unvisited := by
  induction h with
  | done => rfl
  | endless => rfl
  | next _ _ _ ih => simp [ih]

theorem inTurn (h : Round preferences n token ts tl visits unvisited tl') :
    InTurn tl visits tl' := by
  induction h with
  | done => exact .done
  | endless => exact .next .done
  | next _ _ _ ih => exact .next ih

/-- Once a transport is late, so are all after it. -/
theorem pairwise_isLate (h : Round preferences n token ts tl visits unvisited tl') :
    visits.Pairwise (fun v w => v.IsLate token → w.IsLate token) ∧
      (tl.isCancelled token → ∀ v ∈ visits, v.IsLate token) := by
  induction h with
  | done => simp
  | endless => simp [IsLate]
  | next hv _ _ ih =>
    have hlater := fun hlate => ih.2 (hv.isLate hlate)
    refine ⟨List.pairwise_cons.mpr ⟨fun w hw hlate => hlater hlate w hw, ih.1⟩, fun hlate => ?_⟩
    exact List.forall_mem_cons.mpr ⟨hlate, hlater hlate⟩

theorem turns_eq (h : Round preferences n token ts tl visits unvisited tl') :
    tl'.turns = tl.turns ++ visits.map fun v => v.turn n v.fate := by
  induction h with
  | done => simp
  | endless hv => exact hv.turns_eq
  | next hv _ _ ih => simp [ih, hv.turns_eq]

end Round

theorem isSome_offers_iff : (offers visits).isSome ↔ ∀ v ∈ visits, v.offer.isSome := by
  induction visits with
  | nil => simp [offers]
  | cons v rest ih =>
    rw [offers_cons, List.forall_mem_cons, ← ih]
    cases v.offer <;> simp

/-- Something comes of a round that leaves no transport out; otherwise the last one was invoked and waits
for ever. -/
theorem Round.ends (h : Round preferences n token ts tl visits unvisited tl') :
    (offers visits).isSome ∧ unvisited = [] ∨
      offers visits = none ∧ ∃ before v, visits = before ++ [v] ∧
        v.IsInvoked preferences n token ∧ v.offer = none := by
  rw [← Option.not_isSome_iff_eq_none, isSome_offers_iff]
  induction h with
  | done => simp
  | @endless v rest hv hnone =>
    have hfate : v.fate = .given := by simp [fate, hnone]
    exact .inr ⟨by simp [hnone], [], v, rfl, hv.fate_eq_given_iff.mp hfate, hnone⟩
  | @next v rest unvisited visits tl hv hsome _ ih =>
    obtain ⟨hall, hunvisited⟩ | ⟨hnotAll, before, last, rfl, hlast⟩ := ih
    · exact .inl ⟨List.forall_mem_cons.mpr ⟨hsome, hall⟩, hunvisited⟩
    · refine .inr ⟨fun hall => hnotAll (List.forall_mem_cons.mp hall).2, ?_⟩
      exact ⟨v :: before, last, rfl, hlast⟩

/-- Failures are those of the visits, in order. -/
theorem failures_of_offers {made : List (String × Offer)} (h : offers visits = some made) :
    Notifier.failures made = visits.filterMap failure? := by
  induction visits generalizing made with
  | nil =>
    cases h
    rfl
  | cons v rest ih =>
    rw [offers_cons] at h
    cases hoffer : v.offer with
    | none => simp [hoffer] at h
    | some o =>
      simp only [hoffer, Option.map_some, Option.bind_some, Option.map_eq_some_iff] at h
      obtain ⟨more, hmore, rfl⟩ := h
      have hfirst : v.failure? = o.failure?.map (v.transport.key, ·) := by
        simp [failure?, hoffer]
      rw [Notifier.failures, List.filterMap_cons, List.filterMap_cons, hfirst, ← ih hmore]
      rfl

theorem any_isPushed_of_offers {made : List (String × Offer)} (h : offers visits = some made)
    (hheeds : ∀ v ∈ visits, v.Heeds preferences n token) :
    (made.any fun o => o.2.isPushed) = true ↔ ∃ v ∈ visits, v.IsInvoked preferences n token := by
  induction visits generalizing made with
  | nil =>
    cases h
    simp
  | cons v rest ih =>
    obtain ⟨hv, hrest⟩ := List.forall_mem_cons.mp hheeds
    rw [offers_cons] at h
    cases hoffer : v.offer with
    | none => simp [hoffer] at h
    | some o =>
      simp only [hoffer, Option.map_some, Option.bind_some, Option.map_eq_some_iff] at h
      obtain ⟨more, hmore, rfl⟩ := h
      have hfirst : o.isPushed = true ↔ v.IsInvoked preferences n token := by
        rw [← hv.fate_eq_given_iff, fate, hoffer]
        cases o <;> simp [Offer.isPushed]
      simp [hfirst, ih hmore hrest]

end

end Visit

/-- The dispatch of a notification: the visits that transports are paid, and the transports that are not
visited because one before them waits for ever. -/
structure Dispatch where
  notification : Notification
  visits : List Visit
  unvisited : List Transport

namespace Notifier

variable {notifier : Notifier} {n : Notification} {token : Token} {tl left : Timeline}
  {visits : List Visit} {unvisited : List Transport}

/-! ### Reports -/

theorem exists_outcome_eq_error_iff {made : List (String × Offer)} :
    (∃ e, outcome made = .error e) ↔ failures made ≠ [] := by
  unfold outcome
  cases failures made <;> simp

theorem failures_of_outcome {made : List (String × Offer)} {e : DispatchError}
    (h : outcome made = .error e) : e.failures = failures made := by
  unfold outcome at h
  split at h
  · cases h
  · cases h
    rfl

/-- The result of a dispatch is that of the visits, and a dispatch in which nothing was attempted is
reported. -/
theorem push_eq (hoffers : offers notifier.preferences n token notifier.transports tl =
      (Visit.offers visits, visits.map Visit.after ++ unvisited, left)) :
    push n token (notifier, tl) =
      ((Visit.offers visits).map outcome,
        { notifier with transports := visits.map Visit.after ++ unvisited },
        match Visit.offers visits with
        | none => left
        | some made =>
          if !(made.any fun o => o.2.isPushed) && (failures made).isEmpty then
            left.report .warn "No transport attempted delivery" [("to", n.recipient.text)]
          else left) := by
  rw [push, hoffers]
  cases Visit.offers visits <;> rfl

/-- The visits that transports are paid tell what a dispatch does and reports. -/
structure Accounts (notifier : Notifier) (n : Notification) (token : Token) (tl : Timeline)
    (visits : List Visit) (unvisited : List Transport) (left : Timeline) : Prop where
  visited : notifier.transports = visits.map Visit.transport ++ unvisited
  inTurn : Visit.InTurn tl visits left
  heeds : ∀ v ∈ visits, v.Heeds notifier.preferences n token
  late : visits.Pairwise fun v w => v.IsLate token → w.IsLate token
  notifier_eq : (push n token (notifier, tl)).2.1 =
    { notifier with transports := visits.map Visit.after ++ unvisited }
  turns_eq : (push n token (notifier, tl)).2.2.turns =
    tl.turns ++ visits.map fun v => v.turn n v.fate
  given_iff : ∀ v ∈ visits, v.fate = .given ↔ v.IsInvoked notifier.preferences n token
  /-- No transport is left out, unless one that was invoked waits for ever. -/
  ends : (push n token (notifier, tl)).1.isSome ∧ unvisited = [] ∨
    (push n token (notifier, tl)).1 = none ∧ ∃ before v, visits = before ++ [v] ∧
      v.IsInvoked notifier.preferences n token ∧ v.offer = none
  error_iff : (push n token (notifier, tl)).1.isSome →
    ((∃ e, (push n token (notifier, tl)).1 = some (.error e)) ↔
      ∃ v ∈ visits, v.IsLate token ∨ ∃ e, v.FailedWith e)
  failures_eq : ∀ e, (push n token (notifier, tl)).1 = some (.error e) →
    e.failures = visits.filterMap Visit.failure?
  failure_iff : ∀ v ∈ visits, ∀ key e, v.failure? = some (key, e) ↔
    v.transport.key = key ∧ (v.IsLate token ∧ e = .cancelled ∨ v.FailedWith e)
  hasPermanent_iff : ∀ e, (push n token (notifier, tl)).1 = some (.error e) →
    (e.hasPermanent ↔ ∃ v ∈ visits, ∃ e, v.FailedWith e ∧ e.permanent)
  warns : (∀ v ∈ visits, ¬v.IsInvoked notifier.preferences n token ∧ ¬v.IsLate token) →
    (push n token (notifier, tl)).2.2 =
      left.report .warn "No transport attempted delivery" [("to", n.recipient.text)]
  silent : ¬(∀ v ∈ visits, ¬v.IsInvoked notifier.preferences n token ∧ ¬v.IsLate token) →
    (push n token (notifier, tl)).2.2 = left

/-- A visit fails if the transport is late or was invoked in vain. -/
theorem exists_failure_iff (hheeds : ∀ v ∈ visits, v.Heeds notifier.preferences n token) :
    visits.filterMap Visit.failure? ≠ [] ↔
      ∃ v ∈ visits, v.IsLate token ∨ ∃ e, v.FailedWith e := by
  rw [ne_eq, List.eq_nil_iff_forall_not_mem, Classical.not_forall_not]
  constructor
  · rintro ⟨⟨key, e⟩, hmem⟩
    obtain ⟨v, hv, hfailure⟩ := List.mem_filterMap.mp hmem
    obtain ⟨-, hcause⟩ := (hheeds v hv).failure?_eq_some_iff.mp hfailure
    exact ⟨v, hv, hcause.imp And.left fun h => ⟨e, h⟩⟩
  · rintro ⟨v, hv, hcause⟩
    have hadd : ∀ e, v.IsLate token ∧ e = .cancelled ∨ v.FailedWith e →
        (v.transport.key, e) ∈ visits.filterMap Visit.failure? := fun e h =>
      List.mem_filterMap.mpr ⟨v, hv, (hheeds v hv).failure?_eq_some_iff.mpr ⟨rfl, h⟩⟩
    obtain hlate | ⟨e, hfailed⟩ := hcause
    · exact ⟨_, hadd .cancelled (.inl ⟨hlate, rfl⟩)⟩
    · exact ⟨_, hadd e (.inr hfailed)⟩

/-- A cancellation may pass, so only a push can have failed for good. -/
theorem hasPermanent_iff (hheeds : ∀ v ∈ visits, v.Heeds notifier.preferences n token)
    {e : DispatchError} (h : e.failures = visits.filterMap Visit.failure?) :
    e.hasPermanent ↔ ∃ v ∈ visits, ∃ e, v.FailedWith e ∧ e.permanent := by
  rw [DispatchError.hasPermanent, h, List.any_eq_true]
  constructor
  · rintro ⟨⟨key, e⟩, hmem, hpermanent⟩
    obtain ⟨v, hv, hfailure⟩ := List.mem_filterMap.mp hmem
    obtain ⟨-, ⟨-, rfl⟩ | hfailed⟩ := (hheeds v hv).failure?_eq_some_iff.mp hfailure
    · cases hpermanent
    · exact ⟨v, hv, e, hfailed, hpermanent⟩
  · rintro ⟨v, hv, e, hfailed, hpermanent⟩
    exact ⟨(v.transport.key, e), List.mem_filterMap.mpr ⟨v, hv,
      (hheeds v hv).failure?_eq_some_iff.mpr ⟨rfl, .inr hfailed⟩⟩, hpermanent⟩

/-- Nothing was attempted if no transport was invoked and none was late. -/
theorem idle_iff (hheeds : ∀ v ∈ visits, v.Heeds notifier.preferences n token)
    {made : List (String × Offer)} (h : Visit.offers visits = some made) :
    (!(made.any fun o => o.2.isPushed) && (failures made).isEmpty) = true ↔
      ∀ v ∈ visits, ¬v.IsInvoked notifier.preferences n token ∧ ¬v.IsLate token := by
  have hpushed := Visit.any_isPushed_of_offers h hheeds
  have hfailures := not_congr (exists_failure_iff hheeds)
  rw [← Visit.failures_of_offers h, ne_eq, Classical.not_not] at hfailures
  rw [Bool.and_eq_true, Bool.not_eq_true', Bool.eq_false_iff, ne_eq, hpushed, List.isEmpty_iff,
    hfailures]
  constructor
  · rintro ⟨hnone, hfine⟩ v hv
    exact ⟨fun hinvoked => hnone ⟨v, hv, hinvoked⟩, fun hlate => hfine ⟨v, hv, .inl hlate⟩⟩
  · intro hall
    refine ⟨fun ⟨v, hv, hinvoked⟩ => (hall v hv).1 hinvoked, ?_⟩
    rintro ⟨v, hv, hlate | ⟨e, hfailed⟩⟩
    · exact (hall v hv).2 hlate
    · have hdeclined := (hheeds v hv).declined_iff.mpr (hall v hv).symm
      unfold Visit.FailedWith at hfailed
      rw [hdeclined] at hfailed
      cases hfailed

theorem accounts_of_round (hround : Visit.Round notifier.preferences n token notifier.transports tl
      visits unvisited left)
    (hoffers : offers notifier.preferences n token notifier.transports tl =
      (Visit.offers visits, visits.map Visit.after ++ unvisited, left)) :
    Accounts notifier n token tl visits unvisited left := by
  have hpush := push_eq hoffers
  have hheeds := hround.heeds
  have hresult : ∀ outcome', (push n token (notifier, tl)).1 = some outcome' →
      ∃ made, Visit.offers visits = some made ∧ outcome made = outcome' := by
    intro outcome' h
    rw [hpush] at h
    exact Option.map_eq_some_iff.mp h
  have hfailures : ∀ e, (push n token (notifier, tl)).1 = some (.error e) →
      e.failures = visits.filterMap Visit.failure? := by
    intro e h
    obtain ⟨made, hmade, houtcome⟩ := hresult _ h
    rw [failures_of_outcome houtcome, Visit.failures_of_offers hmade]
  have hturns := hround.turns_eq
  constructor
  case visited => exact hround.visited
  case inTurn => exact hround.inTurn
  case heeds => exact hheeds
  case late => exact hround.pairwise_isLate.1
  case notifier_eq => rw [hpush]
  case turns_eq =>
    rw [hpush, ← hturns]
    dsimp only
    split
    · rfl
    · split <;> rfl
  case given_iff => exact fun v hv => (hheeds v hv).fate_eq_given_iff
  case ends =>
    rw [hpush]
    exact hround.ends.imp (And.imp_left fun hsome => by simpa using hsome)
      (And.imp_left fun hnone => by simpa using hnone)
  case error_iff =>
    intro hsome
    obtain ⟨outcome', houtcome⟩ := Option.isSome_iff_exists.mp hsome
    obtain ⟨made, hmade, rfl⟩ := hresult _ houtcome
    rw [houtcome, ← exists_failure_iff hheeds, ← Visit.failures_of_offers hmade,
      ← exists_outcome_eq_error_iff]
    simp
  case failures_eq => exact hfailures
  case failure_iff => exact fun v hv key e => (hheeds v hv).failure?_eq_some_iff
  case hasPermanent_iff => exact fun e h => hasPermanent_iff hheeds (hfailures e h)
  case warns =>
    intro hidle
    have hall : ∀ v ∈ visits, v.offer.isSome := fun v hv => by
      simp [(hheeds v hv).declined_iff.mpr (hidle v hv).symm]
    obtain ⟨made, hmade⟩ := Option.isSome_iff_exists.mp (Visit.isSome_offers_iff.mpr hall)
    rw [hpush, hmade]
    exact if_pos ((idle_iff hheeds hmade).mpr hidle)
  case silent =>
    intro hbusy
    rw [hpush]
    dsimp only
    split
    · rfl
    · rename_i made hmade
      exact if_neg (mt (idle_iff hheeds hmade).mp hbusy)

theorem Accounts.keys_eq (h : notifier.Accounts n token tl visits unvisited left) :
    notifier.transports.map Transport.key =
      visits.map (fun v => v.transport.key) ++ unvisited.map Transport.key := by
  rw [h.visited, List.map_append, List.map_map]
  rfl

/-- A transport that is late is left with the token cancelled. -/
theorem Accounts.isCancelled_of_isLate (h : notifier.Accounts n token tl visits unvisited left)
    {v : Visit} (hv : v ∈ visits) (hlate : v.IsLate token) :
    (push n token (notifier, tl)).2.2.isCancelled token := by
  obtain ⟨-, -, turns, hturns⟩ := dispatches_push n token notifier tl
  have hvisits : visits.map (fun v => v.turn n v.fate) = turns :=
    List.append_cancel_left (h.turns_eq.symm.trans hturns.turns_eq)
  refine hturns.calledOff (v.turn n v.fate) (hvisits ▸ List.mem_map_of_mem hv) ?_
  have hoffer := ((h.heeds v hv).late hlate).1
  simp [Visit.turn, Visit.fate, hoffer]

theorem exists_accounts (notifier : Notifier) (n : Notification) (token : Token) (tl : Timeline) :
    ∃ d : Dispatch, d.notification = n ∧ ∃ left,
      notifier.Accounts n token tl d.visits d.unvisited left := by
  obtain ⟨visits, unvisited, left, hround, hoffers⟩ :=
    Visit.exists_round notifier.preferences n token notifier.transports tl
  exact ⟨⟨n, visits, unvisited⟩, rfl, left, accounts_of_round hround hoffers⟩

/-- Whatever the transports do and whenever the delivery is called off, a dispatch is accounted for by
visits to its transports. -/
theorem push_accounts_for_visits (notifier : Notifier) (n : Notification) (token : Token)
    (tl : Timeline) : ∃ visits unvisited left,
      Accounts notifier n token tl visits unvisited left := by
  obtain ⟨visits, unvisited, left, hround, hoffers⟩ :=
    Visit.exists_round notifier.preferences n token notifier.transports tl
  exact ⟨visits, unvisited, left, accounts_of_round hround hoffers⟩

end Notifier

end Herald
