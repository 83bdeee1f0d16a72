import Herald.Proofs.Transport.Repetition
import Herald.Transport.Basic
import Mathlib.Algebra.Order.BigOperators.Group.List
import Mathlib.Algebra.Order.Ring.Nat
import Mathlib.Algebra.Group.Action.Defs

/-!
The pushes of which a push consists. Each layer pushes through the layers inside it, a retry layer
perhaps several times, down to the endpoint. What layers keep up holds before each of these pushes, and
what each of them leaves behind is there in the end.
-/

namespace Herald

open Timeline

/-! ### What endpoints do -/

namespace Endpoint

def isScripted : Endpoint → Bool
  | .scripted _ _ _ => true
  | _ => false

/-- True if all entries of a script pass the test. -/
def everyEntry (test : Script.Entry → Bool) : Endpoint → Bool
  | .scripted _ script _ => script.all test
  | _ => true

/-- What an endpoint does with a push: it plays its script, or puts out a line, or waits and perhaps
reports. -/
inductive Handles (n : Notification) (tl : Timeline) : Endpoint → Timeline → Prop
  | scripted {key : String} {script : List Script.Entry} {check : Option Check}
      {tl' : Timeline} (h : Waits ((script.head?.getD .quick).cancel = true)
        (tl.see (.pushed key tl.now n)) tl') : Handles n tl (.scripted key script check) tl'
  | printed {e : Endpoint} (he : e.isScripted = false) (transport line : String) :
      Handles n tl e (tl.see (.wrote transport line))
  | worked {e : Endpoint} {tl' : Timeline} (he : e.isScripted = false) (h : Waits False tl tl') :
      Handles n tl e tl'
  | reported {e : Endpoint} {tl' : Timeline} (he : e.isScripted = false) (h : Waits False tl tl')
      (level : Log.Level) (message : String) {details : List (String × String)}
      (hdetails : details.length < 4) : Handles n tl e (tl'.report level message details)

theorem waits_play (e : Script.Entry) (token : Token) (deadline : Option Nat) (tl : Timeline) :
    Waits (e.cancel = true) tl (play e token deadline tl).2 := by
  have hwatch : Waits (e.cancel = true) tl (if e.watch then tl.observe token else tl) := by
    split
    · exact Waits.refl.watch token
    · exact .refl
  have hsleep := hwatch.trans (waits_sleep _ _ e.delay deadline)
  unfold play
  dsimp only
  split
  · rename_i heq
    rw [heq] at hsleep
    exact hsleep
  · rename_i woken heq
    rw [heq] at hsleep
    have hcancel : Waits (e.cancel = true) tl
        (if e.cancel then woken.cancel woken.root else woken) := by
      split
      · rename_i hcancels
        exact hsleep.cancel hcancels
      · exact hsleep
    have hawait := hcancel.trans (waits_awaitCancellation _ _ token deadline)
    split
    · split
      all_goals
        rename_i heq
        rw [heq] at hawait
        exact hawait
    · exact hcancel

end Endpoint

namespace Slack.Client

theorem waits_call (c : Client) (method : String) (body : Json) (token : Token)
    (deadline : Option Nat) (service : Service) (tl : Timeline) :
    Waits False tl (c.call method body token deadline (service, tl)).2.2 := by
  have hrest := waits_rest False tl patience token deadline
  unfold call
  dsimp only
  split
  · exact .refl
  · split
    · exact .refl
    · split
      · exact .refl
      · split
        · exact .refl
        · exact .refl
        · split
          all_goals
            rename_i heq
            rw [heq] at hrest
            exact hrest

end Slack.Client

namespace Endpoint

variable {test : Script.Entry → Bool}

theorem handles_push (n : Notification) (token : Token) (deadline : Option Nat) (e : Endpoint)
    (tl : Timeline) : Handles n tl e (push n token deadline (e, tl)).2.2 := by
  cases e with
  | scripted key script check =>
    exact .scripted (waits_play _ token deadline _)
  | writer fault =>
    cases fault with
    | none => exact .printed rfl _ _
    | some fault => exact .reported rfl .refl _ _ (by simp)
  | blackhole =>
    unfold push
    dsimp only
    split
    · exact .reported rfl .refl _ _ (by simp)
    · exact .worked rfl .refl
  | slack client service =>
    unfold push Slack.Client.push
    dsimp only
    split
    · exact .worked rfl .refl
    · rename_i id _
      have hcall := client.waits_call "chat.postMessage" (Slack.body id.value n) token deadline
        service tl
      split
      · rename_i heq
        rw [heq] at hcall
        exact .reported rfl hcall _ _ (by simp)
      · exact .worked rfl hcall

theorem everyEntry_push (n : Notification) (token : Token) (deadline : Option Nat) {e : Endpoint}
    (tl : Timeline) (h : e.everyEntry test) :
    (push n token deadline (e, tl)).2.1.everyEntry test := by
  cases e with
  | scripted key script check =>
    have hall := List.all_eq_true.mp h
    exact List.all_eq_true.mpr fun entry hentry => hall entry (List.mem_of_mem_tail hentry)
  | writer fault => cases fault <;> rfl
  | blackhole =>
    unfold push
    dsimp only
    split <;> rfl
  | slack client service => rfl

/-- The entry that a script plays next passes as well, if going on without one does. -/
theorem test_next {key : String} {script : List Script.Entry} {check : Option Check}
    (h : (scripted key script check).everyEntry test) (hquick : test .quick) :
    test (script.head?.getD .quick) := by
  cases script with
  | nil => exact hquick
  | cons entry rest => exact List.all_eq_true.mp h entry List.mem_cons_self

end Endpoint

/-! ### The pushes that layers make -/

/-- How often a layer pushes through the layers inside it, at most. -/
def Layer.attempts : Layer → Nat
  | .retry policy => max 1 policy.tries
  | .timeout _ => 1
  | .logging _ => 1

namespace Transport

/-- A push through layers, under a token and a deadline, from a state on. -/
structure Push where
  layers : List Layer
  token : Token
  deadline : Option Nat
  endpoint : Endpoint
  timeline : Timeline

namespace Push

/-- What comes of the push. -/
def outcome (n : Notification) (p : Push) : Option (Except PushError Unit) × Endpoint × Timeline :=
  pushThrough n p.layers p.token p.deadline (p.endpoint, p.timeline)

/-- True for the pushes that reach the endpoint. -/
def isBase (p : Push) : Bool :=
  p.layers.isEmpty

end Push

/-- The pushes of which a push through layers consists, itself included, in the order in which they
end. -/
def pushes (n : Notification) : List Layer → Token → Option Nat → Endpoint × Timeline → List Push
  | [], token, deadline, (endpoint, tl) => [⟨[], token, deadline, endpoint, tl⟩]
  | .logging level :: inner, token, deadline, (endpoint, tl) =>
    pushes n inner token deadline (endpoint, tl) ++
      [⟨.logging level :: inner, token, deadline, endpoint, tl⟩]
  | .timeout limit :: inner, token, deadline, (endpoint, tl) =>
    pushes n inner (tl.issue token).1 (some (earliest (tl.now + limit.ticks) deadline))
        (endpoint, (tl.issue token).2) ++
      [⟨.timeout limit :: inner, token, deadline, endpoint, tl⟩]
  | .retry policy :: inner, token, deadline, (endpoint, tl) =>
    (policy.starts endpoint.key token deadline (pushThrough n inner token deadline)
        (max 1 policy.tries - 1) 0 (endpoint, tl)).flatMap (pushes n inner token deadline) ++
      [⟨.retry policy :: inner, token, deadline, endpoint, tl⟩]

/-- The pushes that reach the endpoint. -/
def basePushes (n : Notification) (layers : List Layer) (token : Token) (deadline : Option Nat)
    (state : Endpoint × Timeline) : List Push :=
  (pushes n layers token deadline state).filter Push.isBase

variable {n : Notification}

section

variable (inner : List Layer) (token : Token) (deadline : Option Nat)
  (state : Endpoint × Timeline)

theorem pushThrough_logging (level : Log.Level) :
    pushThrough n (.logging level :: inner) token deadline state =
      match pushThrough n inner token deadline state with
      | (some (.ok ()), e, tl) => (some (.ok ()), e, reportDelivery level e.key n tl)
      | other => other := by
  rcases hinner : pushThrough n inner token deadline state with ⟨_ | _ | _, e, tl⟩ <;>
    simp only [pushThrough, hinner, keyThrough_eq]

theorem pushThrough_timeout (limit : Duration) :
    pushThrough n (.timeout limit :: inner) token deadline state =
      match pushThrough n inner (state.2.issue token).1
        (some (earliest (state.2.now + limit.ticks) deadline))
        (state.1, (state.2.issue token).2) with
      | (some result, e, tl) => (some result, e, tl)
      | (none, e, tl) =>
        if cutsBefore deadline (state.2.now + limit.ticks) then (none, e, tl)
        else (some (.error (timedOut limit)), e, expire limit e.key (state.2.issue token).1 tl) := by
  have hnow : (state.2.issue token).2.now = state.2.now := rfl
  rcases hinner : pushThrough n inner (state.2.issue token).1
    (some (earliest (state.2.now + limit.ticks) deadline))
    (state.1, (state.2.issue token).2) with ⟨_ | _, e, tl⟩ <;>
    simp only [pushThrough, hnow, hinner, keyThrough_eq]

theorem pushThrough_retry (policy : RetryPolicy) :
    pushThrough n (.retry policy :: inner) token deadline state =
      ((policy.attempts state.1.key token deadline (pushThrough n inner token deadline)
          (max 1 policy.tries - 1) 0 state).1.map Retried.result,
        (policy.attempts state.1.key token deadline (pushThrough n inner token deadline)
          (max 1 policy.tries - 1) 0 state).2) := by
  obtain ⟨e, tl⟩ := state
  unfold pushThrough RetryPolicy.run
  rw [keyThrough_eq]
  split <;> rename_i heq <;> rw [heq] <;> rfl

theorem basePushes_logging (level : Log.Level) :
    basePushes n (.logging level :: inner) token deadline state =
      basePushes n inner token deadline state := by
  rw [basePushes, pushes, List.filter_append]
  exact List.append_nil _

theorem basePushes_timeout (limit : Duration) :
    basePushes n (.timeout limit :: inner) token deadline state =
      basePushes n inner (state.2.issue token).1
        (some (earliest (state.2.now + limit.ticks) deadline)) (state.1, (state.2.issue token).2) := by
  rw [basePushes, pushes, List.filter_append]
  exact List.append_nil _

theorem basePushes_retry (policy : RetryPolicy) :
    basePushes n (.retry policy :: inner) token deadline state =
      (policy.starts state.1.key token deadline (pushThrough n inner token deadline)
        (max 1 policy.tries - 1) 0 state).flatMap (basePushes n inner token deadline) := by
  rw [basePushes, pushes, List.filter_append, List.filter_flatMap]
  exact List.append_nil _

end

/-- The endpoint is reached at most as often as the attempts of all layers multiply to. -/
theorem length_basePushes_le (n : Notification) (layers : List Layer) (token : Token)
    (deadline : Option Nat) (state : Endpoint × Timeline) :
    (basePushes n layers token deadline state).length ≤ (layers.map Layer.attempts).prod := by
  induction layers generalizing token deadline state with
  | nil => exact Nat.le_refl 1
  | cons layer inner ih =>
    rw [List.map_cons, List.prod_cons]
    cases layer with
    | logging level =>
      rw [basePushes_logging, Layer.attempts, Nat.one_mul]
      exact ih token deadline state
    | timeout limit =>
      rw [basePushes_timeout, Layer.attempts, Nat.one_mul]
      exact ih _ _ _
    | retry policy =>
      have hstarts := (policy.repeats_attempts state.1.key token deadline
        (pushThrough n inner token deadline) (max 1 policy.tries - 1) 0 state).length_starts_le
      have hpositive := Nat.le_max_left 1 policy.tries
      rw [basePushes_retry, List.length_flatMap, Layer.attempts]
      refine Nat.le_trans (List.sum_le_card_nsmul _ (inner.map Layer.attempts).prod ?_) ?_
      · intro k hk
        obtain ⟨start, -, rfl⟩ := List.mem_map.mp hk
        exact ih token deadline start
      · rw [smul_eq_mul, List.length_map]
        exact Nat.mul_le_mul_right _ (by omega)

/-! ### What layers keep up -/

/-- Assertions on token, deadline, endpoint and timeline. The first holds before each push if it does
before the outermost one, and the second holds after each. -/
structure Conduct (n : Notification)
    (Before After : Token → Option Nat → Endpoint → Timeline → Prop) : Prop where
  weaken {token : Token} {deadline : Option Nat} {e : Endpoint} {tl : Timeline} :
    Before token deadline e tl → After token deadline e tl
  reach {token : Token} {deadline : Option Nat} {e : Endpoint} {tl : Timeline} :
    Before token deadline e tl → After token deadline (Endpoint.push n token deadline (e, tl)).2.1
      (Endpoint.push n token deadline (e, tl)).2.2
  report {token : Token} {deadline : Option Nat} {e : Endpoint} {tl : Timeline} (level : Log.Level)
    (message : String) (details : List (String × String)) :
    After token deadline e tl → After token deadline e (tl.report level message details)
  pause {token : Token} {deadline : Option Nat} {e : Endpoint} {tl tl' : Timeline}
    {length : Duration} {ending : Pause} : After token deadline e tl →
      tl.PauseEnds length token deadline ending tl' → After token deadline e tl'
  again {token : Token} {deadline : Option Nat} {e : Endpoint} {tl : Timeline} :
    After token deadline e tl → tl.isCancelled token = false → Before token deadline e tl
  enter {token : Token} {deadline : Option Nat} {e : Endpoint} {tl : Timeline} (ticks : Nat) :
    Before token deadline e tl →
      Before (tl.issue token).1 (some (earliest (tl.now + ticks) deadline)) e (tl.issue token).2
  leave {token : Token} {deadline : Option Nat} {e e' : Endpoint} {tl tl' : Timeline} {ticks : Nat} :
    Before token deadline e tl →
      After (tl.issue token).1 (some (earliest (tl.now + ticks) deadline)) e' tl' →
        After token deadline e' tl'
  expire {token : Token} {deadline : Option Nat} {e e' : Endpoint} {tl tl' : Timeline}
    {ticks : Nat} : Before token deadline e tl →
      After (tl.issue token).1 (some (earliest (tl.now + ticks) deadline)) e' tl' →
        After token deadline e' (tl'.cancel (tl.issue token).1)

/-- The first assertion holds before every push, the second at the end. -/
theorem Conduct.pushThrough {Before After : Token → Option Nat → Endpoint → Timeline → Prop}
    (h : Conduct n Before After) (layers : List Layer) (token : Token) (deadline : Option Nat)
    (state : Endpoint × Timeline) (hbefore : Before token deadline state.1 state.2) :
    After token deadline (Transport.pushThrough n layers token deadline state).2.1
        (Transport.pushThrough n layers token deadline state).2.2 ∧
      ∀ p ∈ pushes n layers token deadline state,
        Before p.token p.deadline p.endpoint p.timeline := by
  induction layers generalizing token deadline state with
  | nil => exact ⟨h.reach hbefore, List.forall_mem_singleton.mpr hbefore⟩
  | cons layer inner ih =>
    obtain ⟨e, tl⟩ := state
    cases layer with
    | logging level =>
      obtain ⟨hafter, hpushes⟩ := ih token deadline (e, tl) hbefore
      refine ⟨?_, List.forall_mem_append.mpr ⟨hpushes, List.forall_mem_singleton.mpr hbefore⟩⟩
      rw [pushThrough_logging]
      split
      · rename_i heq
        rw [heq] at hafter
        exact h.report _ _ _ hafter
      · exact hafter
    | timeout limit =>
      obtain ⟨hafter, hpushes⟩ := ih _ _ (e, (tl.issue token).2) (h.enter limit.ticks hbefore)
      refine ⟨?_, List.forall_mem_append.mpr ⟨hpushes, List.forall_mem_singleton.mpr hbefore⟩⟩
      rw [pushThrough_timeout]
      split
      · rename_i heq
        rw [heq] at hafter
        exact h.leave hbefore hafter
      · rename_i heq
        rw [heq] at hafter
        split
        · exact h.leave hbefore hafter
        · exact h.report _ _ _ (h.expire hbefore hafter)
    | retry policy =>
      obtain ⟨hafter, hstarts⟩ := (policy.repeats_attempts e.key token deadline
        (Transport.pushThrough n inner token deadline) (max 1 policy.tries - 1) 0 (e, tl)).conduct
        (Before token deadline) (After token deadline)
        (fun s tl hb => (ih token deadline (s, tl) hb).1)
        (fun s tl tl' ha level message details length ending hpause =>
          h.pause (h.report level message details ha) hpause)
        (fun s tl ha hgoes => h.again ha hgoes) (h.weaken hbefore)
      refine ⟨?_, List.forall_mem_append.mpr ⟨?_, List.forall_mem_singleton.mpr hbefore⟩⟩
      · rw [pushThrough_retry]
        exact hafter
      · intro p hp
        obtain ⟨start, hstart, hp⟩ := List.mem_flatMap.mp hp
        exact (ih token deadline start (hstarts start hstart)).2 p hp

end Transport

/-- A message to nobody in particular. -/
def sampleMessage : Notification :=
  ⟨⟨"1", "/example", "example", none, none, ∅, by decide, by decide⟩, ∅, "hi", ∅, ∅⟩

end Herald
