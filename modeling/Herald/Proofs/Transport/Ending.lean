import Herald.Dispatch
import Herald.Proofs.Transport.Pushes

/-!
Whether a push ends. Layers wait only for so long, so a push without end comes from an endpoint that
waits for ever and from no layer with a deadline around it.
-/

namespace Herald

open Timeline

/-! ### Endpoints -/

theorem Timeline.PauseEnds.ne_cut {tl tl' : Timeline} {length : Duration} {token : Token}
    {ending : Pause} (h : tl.PauseEnds length token none ending tl') : ending ≠ .cut := by
  cases h with
  | first h =>
    have hrest := rest_ne_cut { tl with pauses := tl.pauses ++ [length] } length.ticks token
    rw [pause] at h
    rw [h] at hrest
    exact hrest
  | together hcut => exact hcut

theorem Slack.Client.isSome_call (c : Client) (method : String) (body : Json) (token : Token)
    (service : Service) (tl : Timeline) : (c.call method body token none (service, tl)).1.isSome := by
  have hrest := rest_ne_cut tl patience token
  unfold call
  dsimp only
  split
  · rfl
  · split
    · rfl
    · split
      · rfl
      · split
        · rfl
        · rfl
        · split
          · rfl
          · rfl
          · rename_i heq
            rw [heq] at hrest
            exact absurd rfl hrest

/-- True if the endpoint has no reason to wait for ever. -/
def Endpoint.isPrompt : Endpoint → Bool :=
  everyEntry fun entry => !entry.hang

/-- An endpoint that no deadline cuts off comes to an end, if it need not wait for ever. -/
theorem Endpoint.isSome_push {e : Endpoint} (h : e.isPrompt) (n : Notification) (token : Token)
    (tl : Timeline) : (push n token none (e, tl)).1.isSome := by
  cases e with
  | scripted key script check =>
    have hentry : (script.head?.getD .quick).hang = false := by
      simpa using test_next h rfl
    simp [push, play, sleep, cutsBefore, hentry]
  | writer fault => cases fault <;> rfl
  | blackhole =>
    unfold push
    dsimp only
    split <;> rfl
  | slack client service =>
    unfold push Slack.Client.push
    dsimp only
    split
    · rfl
    · rename_i id _
      have hcall := client.isSome_call "chat.postMessage" (Slack.body id.value n) token service tl
      split
      · rfl
      · exact hcall

/-! ### Layers -/

def Layer.isDeadline : Layer → Bool
  | .timeout _ => true
  | _ => false

namespace RetryPolicy

variable {σ α : Type} {p : RetryPolicy} {transport : String} {token : Token}
  {operation : Course σ (Except PushError α)} {left made : Nat} {state : σ × Timeline}
  {starts' : List (σ × Timeline)} {out : Option (Retried α) × σ × Timeline}

/-- If no deadline cuts off the attempts and they do not end, one of them does not. -/
theorem Repeats.exists_endless
    (h : p.Repeats transport token none operation left made state starts' out)
    (hout : out.1 = none) : ∃ start ∈ starts', (operation start).1 = none := by
  induction h with
  | calledOff => cases hout
  | @ended _ _ s _ tl _ result _ _ heq hresult =>
    refine ⟨(s, tl), List.mem_singleton_self _, ?_⟩
    rw [heq]
    cases result with
    | none => rfl
    | some result =>
      cases result with
      | ok a =>
        rw [hresult] at hout
        cases hout
      | error e =>
        obtain ⟨-, hresult⟩ | ⟨-, -, hresult⟩ := hresult
        · rw [hresult] at hout
          cases hout
        · rw [hresult] at hout
          cases hout
  | interrupted _ _ _ hpause _ =>
    dsimp only at hout
    rw [if_neg hpause.ne_cut] at hout
    cases hout
  | again _ _ _ _ _ ih =>
    obtain ⟨start, hstart, hnone⟩ := ih hout
    exact ⟨start, List.mem_cons_of_mem _ hstart, hnone⟩

end RetryPolicy

namespace Transport

variable {n : Notification}

/-- A push that no deadline cuts off and that does not end has no layer with a deadline, and one of the
pushes to the endpoint does not end. -/
theorem exists_endless {layers : List Layer} {token : Token} {state : Endpoint × Timeline}
    (h : (pushThrough n layers token none state).1 = none) :
    layers.any Layer.isDeadline = false ∧ ∃ p ∈ pushes n layers token none state,
      (Endpoint.push n p.token none (p.endpoint, p.timeline)).1 = none := by
  induction layers generalizing state with
  | nil => exact ⟨rfl, ⟨[], token, none, state.1, state.2⟩, List.mem_singleton_self _, h⟩
  | cons layer inner ih =>
    obtain ⟨e, tl⟩ := state
    cases layer with
    | logging level =>
      have hinner : (pushThrough n inner token none (e, tl)).1 = none := by
        rw [pushThrough_logging] at h
        split at h
        · cases h
        · exact h
      obtain ⟨hlayers, p, hp, hnone⟩ := ih hinner
      exact ⟨hlayers, p, List.mem_append_left _ hp, hnone⟩
    | timeout limit =>
      rw [pushThrough_timeout] at h
      split at h
      · cases h
      · cases h
    | retry policy =>
      rw [pushThrough_retry] at h
      obtain ⟨start, hstart, hnone⟩ := (policy.repeats_attempts e.key token none
        (pushThrough n inner token none) (max 1 policy.tries - 1) 0 (e, tl)).exists_endless
        (Option.map_eq_none_iff.mp h)
      obtain ⟨hlayers, p, hp, hnone⟩ := ih hnone
      exact ⟨hlayers, p, List.mem_append_left _ (List.mem_flatMap.mpr ⟨start, hstart, hp⟩), hnone⟩

/-- Layers keep it up that scripts pass a test entry by entry. -/
theorem conduct_everyEntry (n : Notification) (test : Script.Entry → Bool) :
    Conduct n (fun _ _ e _ => e.everyEntry test) (fun _ _ e _ => e.everyEntry test) where
  weaken h := h
  reach h := Endpoint.everyEntry_push n _ _ _ h
  report _ _ _ h := h
  pause h _ := h
  again h _ := h
  enter _ h := h
  leave _ h := h
  expire _ h := h

/-- True if the endpoint has no reason to wait for ever, or a layer does not let it. -/
def isPrompt (t : Transport) : Bool :=
  t.endpoint.isPrompt || t.layers.any Layer.isDeadline

/-- A prompt transport answers, and stays prompt. -/
theorem isPrompt_push {t : Transport} (h : t.isPrompt) (n : Notification) (token : Token)
    (tl : Timeline) : (push n token (t, tl)).1.isSome ∧ (push n token (t, tl)).2.1.isPrompt := by
  have hconduct := (conduct_everyEntry n fun entry => !entry.hang).pushThrough t.layers
    token none (t.endpoint, tl)
  constructor
  · rw [Option.isSome_iff_ne_none]
    intro hnone
    obtain ⟨hlayers, p, hp, hendless⟩ := exists_endless hnone
    rw [isPrompt, hlayers, Bool.or_false] at h
    have hends := Endpoint.isSome_push ((hconduct h).2 p hp) n p.token p.timeline
    rw [hendless] at hends
    cases hends
  · rw [isPrompt, Bool.or_eq_true] at h ⊢
    exact h.imp_left fun hendpoint => (hconduct hendpoint).1

end Transport

/-! ### Dispatch -/

namespace Notifier

/-- True if all transports are prompt. -/
def isPrompt (notifier : Notifier) : Bool :=
  notifier.transports.all Transport.isPrompt

theorem isPrompt_offers (preferences : Provider) (n : Notification) (token : Token)
    {ts : List Transport} (h : ts.all Transport.isPrompt) (tl : Timeline) :
    (offers preferences n token ts tl).1.isSome ∧
      (offers preferences n token ts tl).2.1.all Transport.isPrompt := by
  induction ts generalizing tl with
  | nil => exact ⟨rfl, rfl⟩
  | cons t rest ih =>
    rw [List.all_cons, Bool.and_eq_true] at h
    have hoffer : (offer preferences n token (t, tl)).1.isSome ∧
        (offer preferences n token (t, tl)).2.1.isPrompt := by
      unfold offer
      dsimp only
      split
      · exact ⟨rfl, h.1⟩
      · split
        · exact ⟨rfl, h.1⟩
        · have hpush := Transport.isPrompt_push h.1 n token
            (((if preferences.waits n t.key then tl.settle else tl).hear
              (preferences.wants n t.key)).note ⟨n, t.key, .given⟩)
          split
          · rename_i heq
            rw [heq] at hpush
            exact ⟨rfl, hpush.2⟩
          · rename_i heq
            rw [heq] at hpush
            cases hpush.1
    unfold offers
    split
    · rename_i heq
      rw [heq] at hoffer
      cases hoffer.1
    · rename_i first t' tl' heq
      rw [heq] at hoffer
      obtain ⟨hsome, hall⟩ := ih h.2 tl'
      exact ⟨by rw [Option.isSome_map]; exact hsome, by rw [List.all_cons, hoffer.2]; exact hall⟩

theorem isPrompt_push (n : Notification) (token : Token) {notifier : Notifier}
    (h : notifier.isPrompt) (tl : Timeline) :
    (push n token (notifier, tl)).1.isSome ∧ (push n token (notifier, tl)).2.1.isPrompt := by
  have hoffers := isPrompt_offers notifier.preferences n token h tl
  unfold push
  dsimp only
  split
  · rename_i heq
    rw [heq] at hoffers
    cases hoffers.1
  · rename_i heq
    rw [heq] at hoffers
    exact ⟨rfl, hoffers.2⟩

end Notifier

end Herald
