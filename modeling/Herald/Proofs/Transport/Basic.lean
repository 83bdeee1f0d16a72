import Herald.Proofs.Transport.Timeline
import Herald.Transport.Basic

/-!
What a push leaves as it was: whatever the layers and the endpoint do, the transport keeps its key, and
its timeline only goes on.
-/

namespace Herald

/-- The course keeps what `view` shows of the state, and its timeline only goes on. -/
def Course.Keeps {σ α β : Type} (view : σ → β) (token : Token) (course : Course σ α) : Prop :=
  ∀ state, view (course state).2.1 = view state.1 ∧
    Timeline.Passes token state.2 (course state).2.2

open Timeline

theorem Course.Keeps.of_eq {σ α β : Type} {view : σ → β} {token : Token} {course : Course σ α}
    (h : course.Keeps view token) {s s' : σ} {tl tl' : Timeline} {result : Option α}
    (heq : course (s, tl) = (result, s', tl')) : view s' = view s ∧ Passes token tl tl' := by
  have hkeeps := h (s, tl)
  rw [heq] at hkeeps
  exact hkeeps

namespace Slack.Client

theorem passes_call (c : Client) (method : String) (body : Json) (token : Token)
    (deadline : Option Nat) (service : Service) (tl : Timeline) :
    Passes token tl (c.call method body token deadline (service, tl)).2.2 := by
  have hrest := passes_rest token tl patience token deadline
  unfold call
  dsimp only
  split
  · exact .refl token tl
  · split
    · exact .refl token tl
    · split
      · exact .refl token tl
      · split
        · exact .refl token tl
        · exact .refl token tl
        · split
          all_goals
            rename_i heq
            rw [heq] at hrest
            exact hrest

theorem passes_push (c : Client) (n : Notification) (token : Token) (deadline : Option Nat)
    (service : Service) (tl : Timeline) :
    Passes token tl (c.push n token deadline (service, tl)).2.2 := by
  unfold push
  dsimp only
  split
  · exact .refl token tl
  · rename_i id _
    have hcall := passes_call c "chat.postMessage" (body id.value n) token deadline service tl
    split
    · rename_i heq
      rw [heq] at hcall
      exact hcall.trans (passes_report token _ _ _ _)
    · exact hcall

end Slack.Client

namespace Endpoint

theorem passes_play (e : Script.Entry) (token : Token) (deadline : Option Nat) (tl : Timeline) :
    Passes token tl (play e token deadline tl).2 := by
  have hwatch : Passes token tl (if e.watch then tl.observe token else tl) := by
    split
    · exact passes_observe token tl token
    · exact .refl token tl
  have hsleep := hwatch.trans (passes_sleep token _ e.delay deadline)
  unfold play
  dsimp only
  split
  · rename_i heq
    rw [heq] at hsleep
    exact hsleep
  · rename_i woken heq
    rw [heq] at hsleep
    have hcancel : Passes token tl (if e.cancel then woken.cancel woken.root else woken) := by
      split
      · exact hsleep.trans (passes_cancel woken (.inl rfl))
      · exact hsleep
    have hawait := hcancel.trans (passes_awaitCancellation token _ token deadline)
    split
    · split
      all_goals
        rename_i heq
        rw [heq] at hawait
        exact hawait
    · exact hcancel

theorem keeps_push (n : Notification) (token : Token) (deadline : Option Nat) :
    (push n token deadline).Keeps key token := by
  rintro ⟨endpoint, tl⟩
  unfold push
  split
  · rename_i key script _ tl heq
    cases heq
    have hsee := passes_see token tl (.pushed key tl.now n)
    exact ⟨rfl, hsee.trans (passes_play _ token deadline _)⟩
  · rename_i heq
    cases heq
    exact ⟨rfl, passes_see token tl _⟩
  · rename_i heq
    cases heq
    exact ⟨rfl, passes_report token tl _ _ _⟩
  · rename_i heq
    cases heq
    split
    · exact ⟨rfl, passes_report token tl _ _ _⟩
    · exact ⟨rfl, .refl token tl⟩
  · rename_i client service tl heq
    cases heq
    exact ⟨rfl, client.passes_push n token deadline service tl⟩

end Endpoint

namespace RetryPolicy

variable {σ α β : Type} {view : σ → β} {token : Token}

/-- The operation and the pause after it, where it is made again. -/
theorem passes_retry {p : RetryPolicy} {transport : String} {made : Nat} {e : PushError}
    {tl tl₁ tl₂ : Timeline} {deadline : Option Nat} {ending : Pause} (hpass : Passes token tl tl₁)
    (hpause : (p.reportRetry transport (made + 1) e tl₁).pause (p.backoff.delay made) token deadline =
      (ending, tl₂)) : Passes token tl tl₂ := by
  have hreport : Passes token tl₁ (p.reportRetry transport (made + 1) e tl₁) :=
    passes_report token tl₁ _ _ _
  have hrest := passes_pause token (p.reportRetry transport (made + 1) e tl₁)
    (p.backoff.delay made) token deadline
  rw [hpause] at hrest
  exact (hpass.trans hreport).trans hrest

theorem keeps_attempts (p : RetryPolicy) (transport : String) (deadline : Option Nat)
    {operation : Course σ (Except PushError α)} (h : Course.Keeps view token operation)
    (left made : Nat) :
    Course.Keeps view token (p.attempts transport token deadline operation left made) := by
  intro state
  fun_induction p.attempts transport token deadline operation left made state with
  | case1 _ _ s tl => exact ⟨rfl, .refl token tl⟩
  | case2 _ _ s tl _ s' tl' hoperation =>
    exact h.of_eq hoperation
  | case3 _ _ s tl _ a s' tl' hoperation =>
    exact h.of_eq hoperation
  | case4 _ _ s tl _ e s' tl' hoperation =>
    exact h.of_eq hoperation
  | case5 _ s tl _ e s' tl' hoperation =>
    exact h.of_eq hoperation
  | case6 _ s tl _ e s' tl' hoperation _ _ _ tl'' hpause =>
    have hkeeps := h.of_eq hoperation
    exact ⟨hkeeps.1, passes_retry hkeeps.2 hpause⟩
  | case7 _ s tl _ e s' tl' hoperation _ _ _ tl'' hpause =>
    have hkeeps := h.of_eq hoperation
    exact ⟨hkeeps.1, passes_retry hkeeps.2 hpause⟩
  | case8 _ s tl _ e s' tl' hoperation _ _ _ tl'' hpause ih =>
    have hkeeps := h.of_eq hoperation
    exact ⟨ih.1.trans hkeeps.1, (passes_retry hkeeps.2 hpause).trans ih.2⟩

theorem keeps_run (p : RetryPolicy) (transport : String) (deadline : Option Nat)
    {operation : Course σ (Except PushError α)} (h : Course.Keeps view token operation) :
    Course.Keeps view token (p.run transport token deadline operation) :=
  p.keeps_attempts transport deadline h _ _

end RetryPolicy

namespace Transport

theorem keeps_pushThrough (n : Notification) (layers : List Layer) (token : Token)
    (deadline : Option Nat) :
    Course.Keeps Endpoint.key token (pushThrough n layers token deadline) := by
  induction layers generalizing token deadline with
  | nil => exact Endpoint.keeps_push n token deadline
  | cons layer inner ih =>
    rintro ⟨endpoint, tl⟩
    cases layer with
    | logging level =>
      unfold pushThrough
      split
      · rename_i endpoint' tl' heq
        have hinner := (ih token deadline).of_eq heq
        exact ⟨hinner.1, hinner.2.trans (passes_report token tl' _ _ _)⟩
      · exact ih token deadline (endpoint, tl)
    | timeout limit =>
      have hissue := passes_issue token tl token
      have hchild := within_issue tl token
      unfold pushThrough
      dsimp only
      split
      · rename_i heq
        have hinner := (ih _ _).of_eq heq
        exact ⟨hinner.1, hissue.trans (hinner.2.outward hchild)⟩
      · rename_i endpoint' tl' heq
        have hinner := (ih _ _).of_eq heq
        have hpass := hissue.trans (hinner.2.outward hchild)
        split
        · exact ⟨hinner.1, hpass⟩
        · have hcancel := hpass.trans (passes_cancel tl' (.inr hchild))
          exact ⟨hinner.1, hcancel.trans (passes_report token _ _ _ _)⟩
    | retry policy =>
      unfold pushThrough
      split
      all_goals
        rename_i heq
        exact (policy.keeps_run (keyThrough inner endpoint) deadline (ih token deadline)).of_eq heq

/-- A push keeps the key of the transport. -/
theorem keeps_push (n : Notification) (token : Token) :
    Course.Keeps key token (push n token) := by
  rintro ⟨t, tl⟩
  simp only [push, key_eq]
  exact keeps_pushThrough n t.layers token none (t.endpoint, tl)

end Transport

end Herald
