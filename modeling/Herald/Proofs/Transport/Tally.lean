import Herald.Proofs.Transport.Basic
import Herald.Proofs.Transport.Pushes

/-!
Keeping count. What a push leaves in the timeline, be it what scripted endpoints were given or what was
reported as delivered, is what the pushes of which it consists leave there one by one.
-/

namespace Herald

open Timeline

variable {β : Type}

/-- Repeated work leaves what each attempt leaves. -/
theorem RetryPolicy.Repeats.tally {σ α : Type} {p : RetryPolicy} {transport : String} {token : Token}
    {deadline : Option Nat} {operation : Course σ (Except PushError α)} {left made : Nat}
    {state : σ × Timeline} {starts : List (σ × Timeline)} {out : Option (Retried α) × σ × Timeline}
    (h : p.Repeats transport token deadline operation left made state starts out)
    (measure : Timeline → List β) (increment : σ × Timeline → List β)
    (hoperation : ∀ s tl, measure (operation (s, tl)).2.2 = measure tl ++ increment (s, tl))
    (hpause : ∀ attempt e tl tl' length ending,
      (p.reportRetry transport attempt e tl).PauseEnds length token deadline ending tl' →
        measure tl' = measure tl) :
    measure out.2.2 = measure state.2 ++ starts.flatMap increment := by
  induction h with
  | calledOff => simp
  | @ended _ _ s _ tl _ _ _ _ heq =>
    have hmeasure := hoperation s tl
    rw [heq] at hmeasure
    rw [List.flatMap_singleton]
    exact hmeasure
  | @interrupted _ _ s _ tl _ _ _ _ _ heq _ hpaused =>
    have hmeasure := hoperation s tl
    rw [heq] at hmeasure
    rw [List.flatMap_singleton]
    exact (hpause _ _ _ _ _ _ hpaused).trans hmeasure
  | @again _ _ s _ tl _ _ _ _ _ _ heq _ hpaused _ ih =>
    have hmeasure := hoperation s tl
    rw [heq] at hmeasure
    rw [ih, hpause _ _ _ _ _ _ hpaused, hmeasure, List.flatMap_cons, List.append_assoc]

namespace Transport

/-- Of all that layers do, only pushes to the endpoint and pushes through a logging layer leave anything
that is counted. -/
structure Tally (n : Notification) (measure : Timeline → List β) (mark : Push → Option β) : Prop where
  reach (token : Token) (deadline : Option Nat) (e : Endpoint) (tl : Timeline) :
    measure (Endpoint.push n token deadline (e, tl)).2.2 =
      measure tl ++ (mark ⟨[], token, deadline, e, tl⟩).toList
  logging (level : Log.Level) (inner : List Layer) (token : Token) (deadline : Option Nat)
    (e : Endpoint) (tl : Timeline) :
    measure (Transport.pushThrough n (.logging level :: inner) token deadline (e, tl)).2.2 =
      measure (Transport.pushThrough n inner token deadline (e, tl)).2.2 ++
        (mark ⟨.logging level :: inner, token, deadline, e, tl⟩).toList
  timeout (limit : Duration) (inner : List Layer) (token : Token) (deadline : Option Nat)
    (e : Endpoint) (tl : Timeline) : mark ⟨.timeout limit :: inner, token, deadline, e, tl⟩ = none
  retry (policy : RetryPolicy) (inner : List Layer) (token : Token) (deadline : Option Nat)
    (e : Endpoint) (tl : Timeline) : mark ⟨.retry policy :: inner, token, deadline, e, tl⟩ = none
  waits {tl tl' : Timeline} : Waits False tl tl' → measure tl' = measure tl
  issue (tl : Timeline) (token : Token) : measure (tl.issue token).2 = measure tl
  expire (limit : Duration) (transport : String) (child : Token) (tl : Timeline) :
    measure (Transport.expire limit transport child tl) = measure tl
  reportRetry (policy : RetryPolicy) (transport : String) (attempt : Nat) (e : PushError)
    (tl : Timeline) : measure (policy.reportRetry transport attempt e tl) = measure tl

variable {n : Notification} {measure : Timeline → List β} {mark : Push → Option β}

theorem Tally.pushThrough (h : Tally n measure mark) (layers : List Layer) (token : Token)
    (deadline : Option Nat) (state : Endpoint × Timeline) :
    measure (Transport.pushThrough n layers token deadline state).2.2 =
      measure state.2 ++ (pushes n layers token deadline state).filterMap mark := by
  induction layers generalizing token deadline state with
  | nil =>
    obtain ⟨e, tl⟩ := state
    rw [pushes, List.filterMap_cons, List.filterMap_nil]
    exact (h.reach token deadline e tl).trans (by cases mark _ <;> rfl)
  | cons layer inner ih =>
    obtain ⟨e, tl⟩ := state
    cases layer with
    | logging level =>
      rw [h.logging, ih, pushes, List.filterMap_append, List.append_assoc, List.filterMap_cons,
        List.filterMap_nil]
      congr 2
    | timeout limit =>
      have hinner := ih (tl.issue token).1 (some (earliest (tl.now + limit.ticks) deadline))
        (e, (tl.issue token).2)
      rw [pushes, List.filterMap_append, List.filterMap_cons, h.timeout, List.filterMap_nil,
        List.append_nil, ← h.issue tl token, ← hinner, pushThrough_timeout]
      dsimp only
      split
      · rename_i heq
        rw [heq]
      · rename_i heq
        rw [heq]
        split
        · rfl
        · exact h.expire _ _ _ _
    | retry policy =>
      have hattempts := (policy.repeats_attempts e.key token deadline
        (Transport.pushThrough n inner token deadline) (max 1 policy.tries - 1) 0 (e, tl)).tally
        measure (fun start => (pushes n inner token deadline start).filterMap mark)
        (fun e tl => ih token deadline (e, tl)) ?_
      · rw [pushes, List.filterMap_append, List.filterMap_cons, h.retry, List.filterMap_nil,
          List.append_nil, List.filterMap_flatMap, pushThrough_retry]
        exact hattempts
      · exact fun attempt e tl tl' length ending hpause =>
          (h.waits hpause.waits).trans (h.reportRetry policy _ attempt e tl)

/-! ### What endpoints were given -/

/-- What the push gives to a scripted endpoint. -/
def Push.arrival? (n : Notification) (p : Push) : Option (String × Nat × Notification) :=
  match p.layers, p.endpoint with
  | [], .scripted key _ _ => some (key, p.timeline.now, n)
  | _, _ => none

theorem Push.arrival?_of_not_scripted {e : Endpoint} (he : e.isScripted = false) (n : Notification)
    (token : Token) (deadline : Option Nat) (tl : Timeline) :
    Push.arrival? n ⟨[], token, deadline, e, tl⟩ = none := by
  cases e with
  | scripted => cases he
  | _ => rfl

theorem tally_arrivals (n : Notification) :
    Tally n Timeline.arrivals (Push.arrival? n) where
  reach token deadline e tl := by
    have hhandles := Endpoint.handles_push n token deadline e tl
    generalize (Endpoint.push n token deadline (e, tl)).2.2 = tl' at hhandles ⊢
    cases hhandles with
    | scripted hwaits =>
      rw [hwaits.quiet.arrivals]
      simp [Timeline.arrivals, Timeline.see, Sighting.pushed?, Push.arrival?]
    | printed he =>
      simp [Timeline.arrivals, Timeline.see, Sighting.pushed?, Push.arrival?_of_not_scripted he]
    | worked he hwaits =>
      rw [Push.arrival?_of_not_scripted he, hwaits.quiet.arrivals]
      exact (List.append_nil _).symm
    | reported he hwaits =>
      rw [Push.arrival?_of_not_scripted he]
      exact hwaits.quiet.arrivals.trans (List.append_nil _).symm
  logging level inner token deadline e tl := by
    rw [pushThrough_logging]
    generalize Transport.pushThrough n inner token deadline (e, tl) = out
    split
    · exact (List.append_nil _).symm
    · exact (List.append_nil _).symm
  timeout _ _ _ _ _ _ := rfl
  retry _ _ _ _ _ _ := rfl
  waits h := h.quiet.arrivals
  issue _ _ := rfl
  expire _ _ _ _ := rfl
  reportRetry _ _ _ _ _ := rfl

end Transport

/-! ### What was reported as delivered -/

/-- The record of a delivery. -/
def Log.Record.ofDelivery (level : Log.Level) (transport : String) (n : Notification) : Log.Record :=
  ⟨level, n.render transport, [("transport", transport), ("id", n.context.id),
    ("event_type", n.context.type), ("to", n.recipient.text)]⟩

/-- True for a record with the details of a delivery. -/
def Log.Record.isDelivery (r : Log.Record) : Bool :=
  r.details.map Prod.fst == ["transport", "id", "event_type", "to"]

/-- The records of deliveries. -/
def Timeline.deliveries (tl : Timeline) : List Log.Record :=
  tl.log.filter Log.Record.isDelivery

theorem Timeline.deliveries_report {level : Log.Level} {message : String}
    {details : List (String × String)} (hdetails : details.length ≠ 4) (tl : Timeline) :
    (tl.report level message details).deliveries = tl.deliveries := by
  have hno : Log.Record.isDelivery ⟨level, message, details⟩ = false := by
    rw [Bool.eq_false_iff]
    intro hdelivery
    have hlength := congrArg List.length (beq_iff_eq.mp hdelivery)
    rw [List.length_map] at hlength
    exact hdetails hlength
  simp [Timeline.deliveries, Timeline.report, hno]

namespace Transport

/-- What a logging layer reports if the push succeeds. -/
def Push.delivery? (n : Notification) (p : Push) : Option Log.Record :=
  match p.layers, (p.outcome n).1 with
  | .logging level :: _, some (.ok ()) => some (.ofDelivery level p.endpoint.key n)
  | _, _ => none

theorem tally_deliveries (n : Notification) :
    Tally n Timeline.deliveries (Push.delivery? n) where
  reach token deadline e tl := by
    have hhandles := Endpoint.handles_push n token deadline e tl
    have hnone : Push.delivery? n ⟨[], token, deadline, e, tl⟩ = none := rfl
    rw [hnone, Option.toList_none, List.append_nil]
    generalize (Endpoint.push n token deadline (e, tl)).2.2 = tl' at hhandles ⊢
    cases hhandles with
    | scripted hwaits =>
      rw [Timeline.deliveries, hwaits.quiet.log]
      rfl
    | printed => rfl
    | worked _ hwaits => rw [Timeline.deliveries, hwaits.quiet.log, Timeline.deliveries]
    | reported _ hwaits _ _ hdetails =>
      rw [Timeline.deliveries_report (Nat.ne_of_lt hdetails), Timeline.deliveries, hwaits.quiet.log,
        Timeline.deliveries]
  logging level inner token deadline e tl := by
    have hkey := (keeps_pushThrough n inner token deadline (e, tl)).1
    unfold Push.delivery? Push.outcome
    dsimp only
    rw [pushThrough_logging]
    generalize Transport.pushThrough n inner token deadline (e, tl) = out at hkey ⊢
    obtain ⟨result, e', tl'⟩ := out
    rcases result with _ | _ | _
    · exact (List.append_nil _).symm
    · exact (List.append_nil _).symm
    · have hrecord : (reportDelivery level e'.key n tl').deliveries =
          tl'.deliveries ++ [.ofDelivery level e'.key n] :=
        List.filter_append ..
      rw [show e'.key = e.key from hkey] at hrecord
      dsimp only
      rw [show e'.key = e.key from hkey]
      exact hrecord
  timeout limit inner token deadline e tl := rfl
  retry policy inner token deadline e tl := rfl
  waits h := by rw [Timeline.deliveries, h.quiet.log, Timeline.deliveries]
  issue _ _ := rfl
  expire limit transport child tl := Timeline.deliveries_report (by simp) _
  reportRetry policy transport attempt e tl := Timeline.deliveries_report (by simp) tl

end Transport

end Herald
