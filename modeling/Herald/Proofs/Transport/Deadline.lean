import Herald.Proofs.Transport.Basic
import Herald.Proofs.Transport.Pushes

/-!
What a deadline changes. Work that nobody calls off either has its own result by the deadline, and then
the deadline makes no difference, or it is cut off at the deadline and has no result.
-/

namespace Herald

open Timeline

/-- Of two outcomes of the same work, the second one is under a deadline. -/
inductive CutAt {σ α : Type} (deadline : Nat) : (own cut : Option α × σ × Timeline) → Prop
  | inTime {out : Option α × σ × Timeline} (hsome : out.1.isSome)
      (hnow : out.2.2.now ≤ deadline) : CutAt deadline out out
  | late {own : Option α × σ × Timeline} {s : σ} {tl : Timeline} (hnow : tl.now = deadline)
      (hlate : own.1 = none ∨ deadline < own.2.2.now) : CutAt deadline own (none, s, tl)

theorem CutAt.cases {σ α : Type} {deadline : Nat} {own cut : Option α × σ × Timeline}
    (h : CutAt deadline own cut) :
    (cut = own ∧ (∃ a, own.1 = some a) ∧ own.2.2.now ≤ deadline) ∨
      ∃ s tl, cut = (none, s, tl) ∧ tl.now = deadline ∧
        (own.1 = none ∨ deadline < own.2.2.now) := by
  cases h with
  | inTime hsome hnow => exact .inl ⟨rfl, Option.isSome_iff_exists.mp hsome, hnow⟩
  | late hnow hlate => exact .inr ⟨_, _, rfl, hnow, hlate⟩

/-- Work that does not call itself off and is cut off by deadlines. -/
structure Course.Cuts {σ α : Type} (course : Option Nat → Course σ α) : Prop where
  cutAt (deadline : Nat) (s : σ) (tl : Timeline) : tl.due = none → tl.now ≤ deadline →
    CutAt deadline (course none (s, tl)) (course (some deadline) (s, tl))
  due_eq (deadline : Option Nat) (s : σ) (tl : Timeline) : tl.due = none →
    (course deadline (s, tl)).2.2.due = none
  now_le (deadline : Option Nat) (s : σ) (tl : Timeline) :
    tl.now ≤ (course deadline (s, tl)).2.2.now

namespace Course.Cuts

variable {σ α : Type} {course : Option Nat → Course σ α} {deadline : Option Nat} {s : σ}
  {tl : Timeline}

theorem isWithin (h : Course.Cuts course) (hdue : tl.due = none) (hnow : IsWithin tl.now deadline) :
    IsWithin (course deadline (s, tl)).2.2.now deadline := by
  rintro d rfl
  obtain ⟨heq, -, hend⟩ | ⟨_, _, heq, hend, -⟩ := (h.cutAt d s tl hdue (hnow d rfl)).cases
  · rw [heq]
    exact hend
  · rw [heq]
    exact Nat.le_of_eq hend

/-- Work that comes to its end in time does so under a deadline as well. -/
theorem eq_of_isWithin (h : Course.Cuts course) (hdue : tl.due = none)
    (hnow : IsWithin tl.now deadline) (hsome : (course none (s, tl)).1.isSome)
    (hend : IsWithin (course none (s, tl)).2.2.now deadline) :
    course deadline (s, tl) = course none (s, tl) := by
  cases deadline with
  | none => rfl
  | some d =>
    obtain ⟨heq, -, -⟩ | ⟨_, _, -, -, hlate⟩ := (h.cutAt d s tl hdue (hnow d rfl)).cases
    · exact heq
    · obtain hnone | hlate := hlate
      · rw [hnone] at hsome
        cases hsome
      · exact absurd (hend d rfl) (Nat.not_le.mpr hlate)

end Course.Cuts

/-! ### Waiting -/

namespace Timeline

variable {tl : Timeline} {deadline : Nat}

theorem calledOff?_of_due_eq_none (h : tl.due = none) (token : Token) (waitEnd : Option Nat) :
    tl.calledOff? token waitEnd = none := by
  unfold calledOff?
  split
  · rw [h]
    rfl
  · rfl

theorem sleep_cases (hnow : tl.now ≤ deadline) (ticks : Nat) :
    tl.sleep ticks (some deadline) = tl.sleep ticks none ∧ (tl.sleep ticks none).1 = true ∧
        (tl.sleep ticks none).2.now ≤ deadline ∨
      (tl.sleep ticks (some deadline)).1 = false ∧
        (tl.sleep ticks (some deadline)).2.now = deadline ∧ (tl.sleep ticks none).1 = true ∧
        deadline < (tl.sleep ticks none).2.now := by
  by_cases hfinish : tl.now + ticks ≤ deadline
  · refine .inl ⟨?_, rfl, ?_⟩
    · simp [sleep, cutsBefore, earliest, Nat.not_lt.mpr hfinish, Nat.min_eq_left hfinish]
    · rw [sleep, now_advance]
      exact Nat.max_le.mpr ⟨hnow, hfinish⟩
  · have hlate := Nat.lt_of_not_le hfinish
    refine .inr ⟨?_, ?_, rfl, ?_⟩
    · simp [sleep, cutsBefore, hlate]
    · rw [sleep, now_advance, earliest]
      omega
    · rw [sleep, now_advance, earliest]
      omega

theorem rest_cases (hdue : tl.due = none) (hnow : tl.now ≤ deadline) (ticks : Nat) (token : Token) :
    tl.rest ticks token (some deadline) = tl.rest ticks token none ∧
        (tl.rest ticks token none).2.now ≤ deadline ∨
      (tl.rest ticks token (some deadline)).1 = .cut ∧
        (tl.rest ticks token (some deadline)).2.now = deadline ∧
        (tl.rest ticks token none).1 = .elapsed ∧ deadline < (tl.rest ticks token none).2.now := by
  unfold rest
  by_cases hcancelled : tl.isCancelled token
  · rw [if_pos hcancelled, if_pos hcancelled]
    exact .inl ⟨rfl, hnow⟩
  · rw [if_neg hcancelled, if_neg hcancelled, calledOff?_of_due_eq_none hdue,
      calledOff?_of_due_eq_none hdue]
    dsimp only
    obtain ⟨heq, helapsed, hend⟩ | ⟨hcut, hend, helapsed, hlate⟩ := sleep_cases hnow ticks
    · rw [heq]
      exact .inl ⟨rfl, hend⟩
    · rw [hcut, helapsed]
      exact .inr ⟨rfl, hend, rfl, hlate⟩

theorem awaitCancellation_cases (hdue : tl.due = none) (hnow : tl.now ≤ deadline) (token : Token) :
    tl.awaitCancellation token (some deadline) = tl.awaitCancellation token none ∧
        (tl.awaitCancellation token none).1 = true ∧
        (tl.awaitCancellation token none).2.now ≤ deadline ∨
      (tl.awaitCancellation token (some deadline)).1 = false ∧
        (tl.awaitCancellation token (some deadline)).2.now = deadline ∧
        (tl.awaitCancellation token none).1 = false := by
  unfold awaitCancellation
  by_cases hcancelled : tl.isCancelled token
  · rw [if_pos hcancelled, if_pos hcancelled]
    exact .inl ⟨rfl, rfl, hnow⟩
  · rw [if_neg hcancelled, if_neg hcancelled, calledOff?_of_due_eq_none hdue,
      calledOff?_of_due_eq_none hdue]
    refine .inr ⟨rfl, ?_, rfl⟩
    rw [now_advance]
    omega

end Timeline

/-! ### Endpoints -/

theorem Slack.Client.cutAt_call (c : Client) (method : String) (body : Json) (token : Token)
    {deadline : Nat} (service : Service) {tl : Timeline} (hdue : tl.due = none)
    (hnow : tl.now ≤ deadline) : CutAt deadline (c.call method body token none (service, tl))
      (c.call method body token (some deadline) (service, tl)) := by
  unfold call
  dsimp only
  split
  · exact .inTime rfl hnow
  · split
    · exact .inTime rfl hnow
    · split
      · exact .inTime rfl hnow
      · split
        · exact .inTime rfl hnow
        · exact .inTime rfl hnow
        · rename_i service' _
          obtain ⟨heq, hend⟩ | ⟨hcut, hend, helapsed, hlate⟩ :=
            rest_cases hdue hnow patience token
          · have hne := rest_ne_cut tl patience token
            rw [heq]
            generalize tl.rest patience token none = ended at hend hne ⊢
            obtain ⟨ending, tl'⟩ := ended
            cases ending with
            | elapsed => exact .inTime rfl hend
            | cancelled => exact .inTime rfl hend
            | cut => exact absurd rfl hne
          · generalize tl.rest patience token none = ended at helapsed hlate ⊢
            generalize tl.rest patience token (some deadline) = cut at hcut hend ⊢
            obtain ⟨ending, tl'⟩ := ended
            obtain ⟨ending', tl''⟩ := cut
            obtain rfl : ending = .elapsed := helapsed
            obtain rfl : ending' = .cut := hcut
            exact .late hend (.inr hlate)

theorem Slack.Client.cutAt_push (c : Client) (n : Notification) (token : Token) {deadline : Nat}
    (service : Service) {tl : Timeline} (hdue : tl.due = none) (hnow : tl.now ≤ deadline) :
    CutAt deadline (c.push n token none (service, tl))
      (c.push n token (some deadline) (service, tl)) := by
  unfold push
  dsimp only
  split
  · exact .inTime rfl hnow
  · rename_i id _
    have hcall := c.cutAt_call "chat.postMessage" (body id.value n) token service hdue hnow
    generalize c.call "chat.postMessage" (body id.value n) token none (service, tl) = own at hcall ⊢
    generalize c.call "chat.postMessage" (body id.value n) token (some deadline) (service, tl) = cut
      at hcall ⊢
    cases hcall with
    | inTime hsome hend =>
      obtain ⟨result, service', tl'⟩ := own
      rcases result with _ | result
      · cases hsome
      · rcases result with e | _
        · exact .inTime rfl hend
        · exact .inTime rfl hend
    | late hend hlate =>
      obtain ⟨result, service', tl'⟩ := own
      rcases result with _ | result
      · exact .late hend (.inl rfl)
      · rcases result with e | _
        · exact .late hend (.inr (hlate.resolve_left nofun))
        · exact .late hend (.inr (hlate.resolve_left nofun))

namespace Endpoint

/-- What is left of an entry after its delay. -/
def playOn (e : Script.Entry) (token : Token) (deadline : Option Nat) (tl : Timeline) :
    Option (Except PushError Unit) × Timeline :=
  let tl := if e.cancel then tl.cancel tl.root else tl
  if e.hang then
    match tl.awaitCancellation token deadline with
    | (true, tl) => (some (.error .cancelled), tl)
    | (false, tl) => (none, tl)
  else (some e.result, tl)

theorem play_eq (e : Script.Entry) (token : Token) (deadline : Option Nat) (tl : Timeline) :
    play e token deadline tl =
      match (if e.watch then tl.observe token else tl).sleep e.delay deadline with
      | (false, tl) => (none, tl)
      | (true, tl) => playOn e token deadline tl :=
  rfl

variable {e : Script.Entry} {token : Token} {deadline : Nat} {tl : Timeline} {σ : Type}

theorem now_le_playOn (e : Script.Entry) (token : Token) (deadline : Option Nat) (tl : Timeline) :
    tl.now ≤ (playOn e token deadline tl).2.now := by
  have hawait := passes_awaitCancellation token (if e.cancel then tl.cancel tl.root else tl) token
    deadline
  have hnow : (if e.cancel then tl.cancel tl.root else tl).now = tl.now := by
    split <;> rfl
  unfold playOn
  dsimp only
  rw [← hnow]
  generalize (if e.cancel then tl.cancel tl.root else tl) = woken at hawait ⊢
  split
  · split
    all_goals
      rename_i heq
      rw [heq] at hawait
      exact hawait.now_le
  · exact Nat.le_refl _

theorem cutAt_playOn (hdue : tl.due = none) (hnow : tl.now ≤ deadline) (s : σ) :
    CutAt deadline ((playOn e token none tl).1, s, (playOn e token none tl).2)
      ((playOn e token (some deadline) tl).1, s, (playOn e token (some deadline) tl).2) := by
  have hcancel : (if e.cancel then tl.cancel tl.root else tl).due = none ∧
      (if e.cancel then tl.cancel tl.root else tl).now ≤ deadline := by
    split
    · exact ⟨hdue, hnow⟩
    · exact ⟨hdue, hnow⟩
  have hawait := awaitCancellation_cases hcancel.1 hcancel.2 token
  unfold playOn
  dsimp only
  split
  · generalize Timeline.awaitCancellation _ token none = own at hawait ⊢
    generalize Timeline.awaitCancellation _ token (some deadline) = cut at hawait ⊢
    obtain ⟨off, tl'⟩ := own
    obtain ⟨off', tl''⟩ := cut
    obtain ⟨heq, hoff, hend⟩ | ⟨hoff', hend, hoff⟩ := hawait
    · cases heq
      obtain rfl : off = true := hoff
      exact .inTime rfl hend
    · obtain rfl : off' = false := hoff'
      obtain rfl : off = false := hoff
      exact .late hend (.inl rfl)
  · exact .inTime rfl hcancel.2

theorem cutAt_play (hdue : tl.due = none) (hnow : tl.now ≤ deadline) (s : σ) :
    CutAt deadline ((play e token none tl).1, s, (play e token none tl).2)
      ((play e token (some deadline) tl).1, s, (play e token (some deadline) tl).2) := by
  have hwatch : (if e.watch then tl.observe token else tl).due = none ∧
      (if e.watch then tl.observe token else tl).now ≤ deadline := by
    split
    · exact ⟨hdue, hnow⟩
    · exact ⟨hdue, hnow⟩
  have hwaits := waits_sleep False (if e.watch then tl.observe token else tl) e.delay none
  have hcases := sleep_cases hwatch.2 e.delay
  rw [play_eq, play_eq]
  generalize (if e.watch then tl.observe token else tl) = watched at hwatch hwaits hcases ⊢
  generalize watched.sleep e.delay none = own at hwaits hcases ⊢
  generalize watched.sleep e.delay (some deadline) = cut at hcases ⊢
  obtain ⟨slept, woken⟩ := own
  obtain ⟨slept', woken'⟩ := cut
  obtain ⟨heq, hslept, hend⟩ | ⟨hcut, hend, hslept, hlate⟩ := hcases
  · cases heq
    obtain rfl : slept = true := hslept
    exact cutAt_playOn (hwaits.due_eq_none hwatch.1) hend s
  · obtain rfl : slept' = false := hcut
    obtain rfl : slept = true := hslept
    exact .late hend (.inr (Nat.lt_of_lt_of_le hlate (now_le_playOn e token none woken)))

theorem cutAt_push (n : Notification) (token : Token) (endpoint : Endpoint) (hdue : tl.due = none)
    (hnow : tl.now ≤ deadline) : CutAt deadline (push n token none (endpoint, tl))
      (push n token (some deadline) (endpoint, tl)) := by
  cases endpoint with
  | scripted key script check =>
    have hsee : (tl.see (.pushed key tl.now n)).due = none := hdue
    exact cutAt_play hsee hnow _
  | writer fault =>
    cases fault with
    | none => exact .inTime rfl hnow
    | some fault => exact .inTime rfl hnow
  | blackhole =>
    unfold push
    dsimp only
    split
    · exact .inTime rfl hnow
    · exact .inTime rfl hnow
  | slack client service =>
    have hpush := client.cutAt_push n token service hdue hnow
    unfold push
    dsimp only
    generalize client.push n token none (service, tl) = own at hpush ⊢
    generalize client.push n token (some deadline) (service, tl) = cut at hpush ⊢
    cases hpush with
    | inTime hsome hend => exact .inTime hsome hend
    | late hend hlate => exact .late hend hlate

theorem due_push (n : Notification) (token : Token) (deadline : Option Nat) (endpoint : Endpoint)
    (hdue : tl.due = none) : (push n token deadline (endpoint, tl)).2.2.due = none := by
  have hhandles := handles_push n token deadline endpoint tl
  generalize (push n token deadline (endpoint, tl)).2.2 = tl' at hhandles ⊢
  cases hhandles with
  | scripted hwaits => exact hwaits.due_eq_none hdue
  | printed => exact hdue
  | worked _ hwaits => exact hwaits.due_eq_none hdue
  | reported _ hwaits => exact hwaits.due_eq_none hdue

theorem cuts_push (n : Notification) (token : Token) :
    Course.Cuts fun deadline => push n token deadline where
  cutAt _ endpoint _ := cutAt_push n token endpoint
  due_eq deadline endpoint _ := due_push n token deadline endpoint
  now_le deadline endpoint tl := (keeps_push n token deadline (endpoint, tl)).2.now_le

end Endpoint

/-! ### Attempts -/

theorem Timeline.pause_cases {tl : Timeline} {deadline : Nat} (hdue : tl.due = none)
    (hnow : tl.now ≤ deadline) (length : Duration) (token : Token) :
    tl.pause length token (some deadline) = tl.pause length token none ∧
        (tl.pause length token none).2.now ≤ deadline ∨
      (tl.pause length token (some deadline)).1 = .cut ∧
        (tl.pause length token (some deadline)).2.now = deadline ∧
        (tl.pause length token none).1 = .elapsed ∧
        deadline < (tl.pause length token none).2.now := by
  have hasked : ({ tl with pauses := tl.pauses ++ [length] } : Timeline).due = none := hdue
  exact rest_cases hasked hnow length.ticks token

/-- Work that goes on after a pause is cut off in the pause or later. -/
theorem cutAt_resume {σ β : Type} {tl : Timeline} {deadline : Nat} (hdue : tl.due = none)
    (hnow : tl.now ≤ deadline) (length : Duration) (token : Token) (stopped : β)
    (go : Option Nat → Course σ β) (s : σ)
    (hgo : ∀ tl', tl'.due = none → tl'.now ≤ deadline →
      CutAt deadline (go none (s, tl')) (go (some deadline) (s, tl')))
    (hlater : ∀ tl' : Timeline, tl'.now ≤ (go none (s, tl')).2.2.now) :
    CutAt deadline
      (match tl.pause length token none with
        | (.cancelled, tl) => (some stopped, s, tl)
        | (.cut, tl) => (none, s, tl)
        | (.elapsed, tl) => go none (s, tl))
      (match tl.pause length token (some deadline) with
        | (.cancelled, tl) => (some stopped, s, tl)
        | (.cut, tl) => (none, s, tl)
        | (.elapsed, tl) => go (some deadline) (s, tl)) := by
  have hpause := waits_pause False tl length token none
  have hne : (tl.pause length token none).1 ≠ .cut := rest_ne_cut _ _ token
  have hcases := pause_cases hdue hnow length token
  generalize tl.pause length token none = own at hpause hne hcases ⊢
  generalize tl.pause length token (some deadline) = cut at hcases ⊢
  obtain ⟨ending, tl'⟩ := own
  obtain ⟨ending', tlc⟩ := cut
  obtain ⟨heq, hend⟩ | ⟨hcut, hend, helapsed, hlate⟩ := hcases
  · cases heq
    cases ending with
    | elapsed => exact hgo tl' (hpause.due_eq_none hdue) hend
    | cancelled => exact .inTime rfl hend
    | cut => exact absurd rfl hne
  · obtain rfl : ending' = .cut := hcut
    obtain rfl : ending = .elapsed := helapsed
    exact .late hend (.inr (Nat.lt_of_lt_of_le hlate (hlater tl')))

namespace RetryPolicy

variable {σ α : Type} (p : RetryPolicy) (transport : String) {token : Token}
  {course : Option Nat → Course σ (Except PushError α)}

theorem now_le_attempts (h : Course.Cuts course) (deadline : Option Nat) (left made : Nat) (s : σ)
    (tl : Timeline) :
    tl.now ≤ (p.attempts transport token deadline (course deadline) left made (s, tl)).2.2.now := by
  have hrepeats := p.repeats_attempts transport token deadline (course deadline) left made (s, tl)
  refine (hrepeats.conduct (fun _ tl' => tl.now ≤ tl'.now) (fun _ tl' => tl.now ≤ tl'.now) ?_ ?_ ?_
    (Nat.le_refl _)).1
  · exact fun s' tl' hbefore => Nat.le_trans hbefore (h.now_le deadline s' tl')
  · exact fun _ _ _ hafter _ _ _ _ _ hpause => Nat.le_trans hafter hpause.waits.now_le
  · exact fun _ _ hafter _ => hafter

theorem due_attempts (h : Course.Cuts course) (deadline : Option Nat) (left made : Nat) (s : σ)
    {tl : Timeline} (hdue : tl.due = none) :
    (p.attempts transport token deadline (course deadline) left made (s, tl)).2.2.due = none := by
  have hrepeats := p.repeats_attempts transport token deadline (course deadline) left made (s, tl)
  refine (hrepeats.conduct (fun _ tl' => tl'.due = none) (fun _ tl' => tl'.due = none) ?_ ?_ ?_
    hdue).1
  · exact fun s' tl' hbefore => h.due_eq deadline s' tl' hbefore
  · exact fun _ _ _ hafter _ _ _ _ _ hpause => hpause.waits.due_eq_none hafter
  · exact fun _ _ hafter _ => hafter

/-- The attempts end no earlier than the first of them. -/
theorem now_operation_le_attempts (h : Course.Cuts course) (deadline : Option Nat) (left made : Nat)
    (s : σ) {tl : Timeline} (hgoes : tl.isCancelled token = false) :
    (course deadline (s, tl)).2.2.now ≤
      (p.attempts transport token deadline (course deadline) left made (s, tl)).2.2.now := by
  rw [attempts, if_neg (Bool.eq_false_iff.mp hgoes)]
  generalize course deadline (s, tl) = out
  obtain ⟨result, s', tl'⟩ := out
  rcases result with _ | e | a
  · exact Nat.le_refl _
  · dsimp only
    split
    · exact Nat.le_refl _
    · cases left with
      | zero => exact Nat.le_refl _
      | succ left =>
        have hpause := waits_pause False (p.reportRetry transport (made + 1) e tl')
          (p.backoff.delay made) token deadline
        dsimp only
        generalize Timeline.pause _ _ token deadline = paused at hpause ⊢
        obtain ⟨ending, tl''⟩ := paused
        cases ending with
        | elapsed =>
          exact Nat.le_trans hpause.now_le
            (now_le_attempts p transport h deadline left _ s' tl'')
        | cancelled => exact hpause.now_le
        | cut => exact hpause.now_le
  · exact Nat.le_refl _

/-- Attempts are cut off with the first of them. -/
theorem cutAt_attempts_of_late (h : Course.Cuts course) {deadline : Nat} (left made : Nat)
    {s s' : σ} {tl tl' : Timeline} (hgoes : tl.isCancelled token = false)
    (hcut : course (some deadline) (s, tl) = (none, s', tl')) (hend : tl'.now = deadline)
    (hlate : (course none (s, tl)).1 = none ∨ deadline < (course none (s, tl)).2.2.now) :
    CutAt deadline (p.attempts transport token none (course none) left made (s, tl))
      (p.attempts transport token (some deadline) (course (some deadline)) left made (s, tl)) := by
  have hlater := now_operation_le_attempts p transport h none left made s hgoes
  have hattempts : p.attempts transport token (some deadline) (course (some deadline)) left made
      (s, tl) = (none, s', tl') := by
    rw [attempts, if_neg (Bool.eq_false_iff.mp hgoes), hcut]
  rw [hattempts]
  refine .late hend (hlate.imp (fun hnone => ?_) fun hlate => Nat.lt_of_lt_of_le hlate hlater)
  rw [attempts, if_neg (Bool.eq_false_iff.mp hgoes)]
  generalize course none (s, tl) = own at hnone ⊢
  obtain ⟨result, s', tl'⟩ := own
  obtain rfl : result = none := hnone
  rfl

/-- Attempts are cut off with the first of them, or in the pause after it, or later. -/
theorem cutAt_attempts_of_more (h : Course.Cuts course) {deadline : Nat} (left made : Nat) (s : σ)
    {tl : Timeline} (hdue : tl.due = none) (hnow : tl.now ≤ deadline)
    (hmore : ∀ more s tl, left = more + 1 → Timeline.due tl = none → tl.now ≤ deadline →
      CutAt deadline (p.attempts transport token none (course none) more (made + 1) (s, tl))
        (p.attempts transport token (some deadline) (course (some deadline)) more (made + 1)
          (s, tl))) :
    CutAt deadline (p.attempts transport token none (course none) left made (s, tl))
      (p.attempts transport token (some deadline) (course (some deadline)) left made (s, tl)) := by
  by_cases hcancelled : tl.isCancelled token
  · rw [attempts, attempts, if_pos hcancelled, if_pos hcancelled]
    exact .inTime rfl hnow
  · have hdue' := h.due_eq none s tl hdue
    obtain ⟨heq, ⟨result, hresult⟩, hend⟩ | ⟨s', tl', heq, hend, hlate⟩ :=
      (h.cutAt deadline s tl hdue hnow).cases
    · rw [attempts, attempts, if_neg hcancelled, if_neg hcancelled, heq]
      generalize course none (s, tl) = own at hdue' hresult hend ⊢
      obtain ⟨result', s', tl'⟩ := own
      obtain rfl : result' = some result := hresult
      rcases result with e | a
      · dsimp only
        split
        · exact .inTime rfl hend
        · cases left with
          | zero => exact .inTime rfl hend
          | succ more =>
            have hreport : (p.reportRetry transport (made + 1) e tl').due = none := hdue'
            exact cutAt_resume hreport hend (p.backoff.delay made) token _
              (fun deadline => p.attempts transport token deadline (course deadline) more (made + 1))
              s' (fun tl'' => hmore more s' tl'' rfl) (now_le_attempts p transport h none more _ s')
      · exact .inTime rfl hend
    · have hgoes := Bool.eq_false_iff.mpr hcancelled
      exact cutAt_attempts_of_late p transport h left made hgoes heq hend hlate

theorem cutAt_attempts (h : Course.Cuts course) {deadline : Nat} (left made : Nat) (s : σ)
    {tl : Timeline} (hdue : tl.due = none) (hnow : tl.now ≤ deadline) :
    CutAt deadline (p.attempts transport token none (course none) left made (s, tl))
      (p.attempts transport token (some deadline) (course (some deadline)) left made (s, tl)) := by
  induction left generalizing made s tl with
  | zero => exact cutAt_attempts_of_more p transport h 0 made s hdue hnow nofun
  | succ left ih =>
    refine cutAt_attempts_of_more p transport h (left + 1) made s hdue hnow fun more s' tl' heq => ?_
    cases heq
    exact ih (made + 1) s'

/-- Repeated work is cut off by deadlines if the work is. -/
theorem cuts_attempts (token : Token) (h : Course.Cuts course) (left made : Nat) :
    Course.Cuts fun deadline => p.attempts transport token deadline (course deadline) left made where
  cutAt _ s _ := cutAt_attempts p transport h left made s
  due_eq deadline s _ := due_attempts p transport h deadline left made s
  now_le deadline s tl := now_le_attempts p transport h deadline left made s tl

end RetryPolicy

/-! ### Layers -/

namespace Transport

variable {n : Notification}

/-- Layers call nothing off. -/
theorem conduct_due (n : Notification) :
    Conduct n (fun _ _ _ tl => tl.due = none) (fun _ _ _ tl => tl.due = none) where
  weaken h := h
  reach h := Endpoint.due_push n _ _ _ h
  report _ _ _ h := h
  pause h hpause := hpause.waits.due_eq_none h
  again h _ := h
  enter _ h := h
  leave _ h := h
  expire _ h := h

@[simp] theorem now_expire (limit : Duration) (transport : String) (child : Token) (tl : Timeline) :
    (expire limit transport child tl).now = tl.now :=
  rfl

section

variable {inner : List Layer} {token : Token} {limit : Duration} {deadline : Nat} {tl : Timeline}

/-- The deadline falls before the limit. If it cuts the work off, there is no result. -/
theorem cutAt_timeout_of_lt
    (h : ∀ child, Course.Cuts fun deadline => pushThrough n inner child deadline) (e : Endpoint)
    (hdue : tl.due = none) (hnow : tl.now ≤ deadline)
    (hfirst : deadline < tl.now + limit.ticks) :
    CutAt deadline (pushThrough n (.timeout limit :: inner) token none (e, tl))
      (pushThrough n (.timeout limit :: inner) token (some deadline) (e, tl)) := by
  have hissue : (tl.issue token).2.due = none := hdue
  have hlimit := ((h (tl.issue token).1).cutAt (tl.now + limit.ticks) e (tl.issue token).2 hissue
    (Nat.le_add_right _ _)).cases
  have hdeadline := ((h (tl.issue token).1).cutAt deadline e (tl.issue token).2 hissue hnow).cases
  have hcuts : cutsBefore (some deadline) (tl.now + limit.ticks) = true := decide_eq_true hfirst
  rw [pushThrough_timeout, pushThrough_timeout]
  dsimp only [earliest]
  rw [Nat.min_eq_right (Nat.le_of_lt hfirst)]
  obtain ⟨hcut, ⟨result, hresult⟩, hend⟩ | ⟨e', tl', hcut, hend, hlate⟩ := hdeadline
  · obtain ⟨hown, -, -⟩ | ⟨-, -, -, -, hlate⟩ := hlimit
    · rw [hcut, hown]
      generalize pushThrough n inner _ none _ = own at hresult hend ⊢
      obtain ⟨result', e', tl'⟩ := own
      obtain rfl : result' = some result := hresult
      exact .inTime rfl hend
    · rw [hresult] at hlate
      have hlate := hlate.resolve_left nofun
      exact absurd (Nat.lt_trans hfirst hlate) (Nat.not_lt.mpr hend)
  · rw [hcut]
    dsimp only
    rw [if_pos hcuts]
    obtain ⟨hown, ⟨result, hresult⟩, -⟩ | ⟨e'', tl'', hown, hend', -⟩ := hlimit
    · rw [hown]
      generalize pushThrough n inner _ none _ = own at hresult hlate ⊢
      obtain ⟨result', e'', tl''⟩ := own
      obtain rfl : result' = some result := hresult
      exact .late hend (.inr (hlate.resolve_left nofun))
    · rw [hown]
      dsimp only
      rw [if_neg (by simp [cutsBefore])]
      refine .late hend (.inr ?_)
      rw [now_expire, hend']
      exact hfirst

/-- The limit comes first, so the work is under the same limit either way. -/
theorem cutAt_timeout_of_le
    (h : ∀ child, Course.Cuts fun deadline => pushThrough n inner child deadline) (e : Endpoint)
    (hdue : tl.due = none) (hfirst : tl.now + limit.ticks ≤ deadline) :
    CutAt deadline (pushThrough n (.timeout limit :: inner) token none (e, tl))
      (pushThrough n (.timeout limit :: inner) token (some deadline) (e, tl)) := by
  have hissue : (tl.issue token).2.due = none := hdue
  have hlimit : IsWithin (pushThrough n inner (tl.issue token).1 (some (tl.now + limit.ticks))
      (e, (tl.issue token).2)).2.2.now (some (tl.now + limit.ticks)) := by
    refine (h (tl.issue token).1).isWithin hissue ?_
    rintro _ ⟨⟩
    exact Nat.le_add_right _ _
  have hend := Nat.le_trans (hlimit _ rfl) hfirst
  have hcuts : cutsBefore (some deadline) (tl.now + limit.ticks) = false :=
    decide_eq_false (Nat.not_lt.mpr hfirst)
  rw [pushThrough_timeout, pushThrough_timeout]
  dsimp only [earliest]
  rw [Nat.min_eq_left hfirst]
  generalize pushThrough n inner _ (some (tl.now + limit.ticks)) _ = out at hend ⊢
  obtain ⟨result, e', tl'⟩ := out
  rcases result with _ | result
  · dsimp only
    rw [hcuts]
    exact .inTime rfl hend
  · exact .inTime rfl hend

end

/-- A push through layers is cut off by deadlines. -/
theorem cuts_pushThrough (n : Notification) (layers : List Layer) (token : Token) :
    Course.Cuts fun deadline => pushThrough n layers token deadline := by
  induction layers generalizing token with
  | nil => exact Endpoint.cuts_push n token
  | cons layer inner ih =>
    refine ⟨?_, fun deadline e tl hdue =>
      ((conduct_due n).pushThrough (layer :: inner) token deadline (e, tl) hdue).1,
      fun deadline e tl => (keeps_pushThrough n (layer :: inner) token deadline (e, tl)).2.now_le⟩
    intro deadline e tl hdue hnow
    cases layer with
    | logging level =>
      have hinner := (ih token).cutAt deadline e tl hdue hnow
      rw [pushThrough_logging, pushThrough_logging]
      generalize pushThrough n inner token none (e, tl) = own at hinner ⊢
      generalize pushThrough n inner token (some deadline) (e, tl) = cut at hinner ⊢
      obtain ⟨rfl, ⟨result, hresult⟩, hend⟩ | ⟨e', tl', rfl, hend, hlate⟩ := hinner.cases
      · obtain ⟨result', e', tl'⟩ := cut
        obtain rfl : result' = some result := hresult
        rcases result with e | _
        · exact .inTime rfl hend
        · exact .inTime rfl hend
      · obtain ⟨result, e'', tl''⟩ := own
        rcases result with _ | e | _
        · exact .late hend (.inl rfl)
        · exact .late hend (.inr (hlate.resolve_left nofun))
        · exact .late hend (.inr (hlate.resolve_left nofun))
    | timeout limit =>
      obtain hfirst | hfirst := Nat.lt_or_ge deadline (tl.now + limit.ticks)
      · exact cutAt_timeout_of_lt ih e hdue hnow hfirst
      · exact cutAt_timeout_of_le ih e hdue hfirst
    | retry policy =>
      have hinner := (policy.cuts_attempts e.key token (ih token) (max 1 policy.tries - 1) 0).cutAt
        deadline e tl hdue hnow
      rw [pushThrough_retry, pushThrough_retry]
      dsimp only at hinner ⊢
      generalize policy.attempts e.key token none _ _ 0 (e, tl) = own at hinner ⊢
      generalize policy.attempts e.key token (some deadline) _ _ 0 (e, tl) = cut at hinner ⊢
      obtain ⟨rfl, ⟨result, hresult⟩, hend⟩ | ⟨e', tl', rfl, hend, hlate⟩ := hinner.cases
      · exact .inTime (by rw [hresult]; rfl) hend
      · exact .late hend (hlate.imp_left fun hnone => by rw [hnone]; rfl)

end Transport

end Herald
