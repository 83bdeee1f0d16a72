import Herald.Proofs.Transport.Tally
import Herald.Proofs.Transport.Undisturbed

/-!
Stacks of layers in a delivery that nobody calls off. Whatever the order of the layers, the endpoint is
reached no more often than their attempts allow, limits are kept, every limit has a token of its own,
and what the endpoint says first counts if it is final and comes in time.
-/

namespace Herald

open Timeline

namespace Transport

/-! ### Limits -/

namespace Push

/-- How the layers inside a limit would go on if nothing cut them off. -/
def own (n : Notification) (p : Push) (inner : List Layer) :
    Option (Except PushError Unit) × Endpoint × Timeline :=
  pushThrough n inner (p.timeline.issue p.token).1 none (p.endpoint, (p.timeline.issue p.token).2)

/-- How a push under a limit ends: just as the layers inside it, if they come to an end in time, or with a
failure at the limit, or without a result at a deadline around it that falls first. -/
inductive EndsWithin (n : Notification) (p : Push) (limit : Duration) (inner : List Layer) : Prop
  | inTime (hsome : (p.own n inner).1.isSome)
      (hnow : (p.own n inner).2.2.now ≤ p.timeline.now + limit.ticks)
      (hwithin : IsWithin (p.own n inner).2.2.now p.deadline) (hout : p.outcome n = p.own n inner)
  | timedOut (hlate : (p.own n inner).1 = none ∨
        p.timeline.now + limit.ticks < (p.own n inner).2.2.now)
      (hwithin : IsWithin (p.timeline.now + limit.ticks) p.deadline)
      (hresult : (p.outcome n).1 = some (.error (Transport.timedOut limit)))
      (hnow : (p.outcome n).2.2.now = p.timeline.now + limit.ticks)
  | cutOff {d : Nat} (hd : p.deadline = some d) (hfirst : d < p.timeline.now + limit.ticks)
      (hlate : (p.own n inner).1 = none ∨ d < (p.own n inner).2.2.now)
      (hresult : (p.outcome n).1 = none) (hnow : (p.outcome n).2.2.now = d)

theorem EndsWithin.now_le {n : Notification} {p : Push} {limit : Duration} {inner : List Layer}
    (h : p.EndsWithin n limit inner) : (p.outcome n).2.2.now ≤ p.timeline.now + limit.ticks := by
  cases h with
  | inTime _ hnow _ hout => exact hout ▸ hnow
  | timedOut _ _ _ hnow => exact Nat.le_of_eq hnow
  | cutOff _ hfirst _ _ hnow => exact Nat.le_trans (Nat.le_of_eq hnow) (Nat.le_of_lt hfirst)

theorem endsWithin {n : Notification} {limit : Duration} {inner : List Layer} {token : Token}
    {deadline : Option Nat} {e : Endpoint} {tl : Timeline} (h : Undisturbed token deadline e tl) :
    EndsWithin n ⟨.timeout limit :: inner, token, deadline, e, tl⟩ limit inner := by
  have henter := h.enter limit.ticks
  have hwithin := isWithin_earliest (tl.now + limit.ticks) deadline
  have hout : outcome n ⟨.timeout limit :: inner, token, deadline, e, tl⟩ = _ :=
    pushThrough_timeout inner token deadline (e, tl) limit
  dsimp only at hout
  obtain ⟨heq, ⟨result, hresult⟩, hend⟩ | ⟨e', tl', heq, hend, hlate⟩ :=
    ((cuts_pushThrough n inner (tl.issue token).1).cutAt _ e (tl.issue token).2 henter.due_eq
      (henter.isWithin _ rfl)).cases
  · refine .inTime (Option.isSome_of_eq_some hresult) (Nat.le_trans hend (earliest_le _ deadline))
      (hwithin.trans_le hend) ?_
    unfold own
    rw [hout]
    dsimp only
    rw [heq]
    generalize pushThrough n inner _ none _ = out at hresult ⊢
    obtain ⟨result', e', tl'⟩ := out
    obtain rfl : result' = some result := hresult
    rfl
  · rw [heq] at hout
    dsimp only at hout
    obtain ⟨hcuts, d, hd, hfirst, hearliest⟩ | ⟨hcuts, hearliest⟩ :=
      cutsBefore_cases deadline (tl.now + limit.ticks)
    · rw [if_pos hcuts] at hout
      rw [hearliest] at hlate hend
      exact .cutOff hd hfirst hlate (congrArg Prod.fst hout) (hout ▸ hend)
    · rw [if_neg (Bool.eq_false_iff.mp hcuts)] at hout
      rw [hearliest] at hlate hend hwithin
      exact .timedOut hlate hwithin (congrArg Prod.fst hout) (hout ▸ hend)

/-- A push keeps its limit. The layers inside it get a token of their own that is not cancelled, and the
failure at the limit is one after which others may try again. -/
structure KeepsLimit (n : Notification) (p : Push) (limit : Duration) (inner : List Layer) :
    Prop where
  fresh : ∀ t : Token, t.IssuedBefore p.timeline.issued → t ≠ (p.timeline.issue p.token).1
  goes : (p.timeline.issue p.token).2.isCancelled (p.timeline.issue p.token).1 = false
  now_le : (p.outcome n).2.2.now ≤ p.timeline.now + limit.ticks
  ends : p.EndsWithin n limit inner
  permanent_eq : (timedOut limit).permanent = false

theorem keepsLimit {n : Notification} {limit : Duration} {inner : List Layer} {token : Token}
    {deadline : Option Nat} {e : Endpoint} {tl : Timeline} (h : Undisturbed token deadline e tl) :
    KeepsLimit n ⟨.timeout limit :: inner, token, deadline, e, tl⟩ limit inner where
  fresh _ ht := ht.ne_issue h.path_ne
  goes := (h.enter limit.ticks).goes
  now_le := (endsWithin h).now_le
  ends := endsWithin h
  permanent_eq := rfl

end Push

end Transport

/-! ### Final results -/

/-- Nobody tries again after such a result. -/
def IsFinal {α : Type} (result : Except PushError α) : Prop :=
  ∀ e, result = .error e → e.permanent

namespace RetryPolicy

variable {σ α : Type} (p : RetryPolicy) (transport : String) {token : Token} (deadline : Option Nat)
  (operation : Course σ (Except PushError α)) (left made : Nat) {s s' : σ} {tl tl' : Timeline}

/-- Unless it has been called off before, there is a first attempt. -/
theorem exists_starts_eq (hgoes : tl.isCancelled token = false) (s : σ) :
    ∃ more, p.starts transport token deadline operation left made (s, tl) = (s, tl) :: more := by
  rw [starts, if_neg (Bool.eq_false_iff.mp hgoes)]
  exact ⟨_, rfl⟩

/-- If the result of the first attempt is final, it is the result, and there is no other attempt. -/
theorem attempts_of_isFinal {result : Except PushError α} (hgoes : tl.isCancelled token = false)
    (heq : operation (s, tl) = (some result, s', tl')) (hfinal : IsFinal result) :
    (p.attempts transport token deadline operation left made (s, tl)).1.map Retried.result =
        some result ∧
      p.starts transport token deadline operation left made (s, tl) = [(s, tl)] := by
  have hgoes := Bool.eq_false_iff.mp hgoes
  rw [attempts, starts, if_neg hgoes, if_neg hgoes, heq]
  cases result with
  | ok a => exact ⟨rfl, rfl⟩
  | error e =>
    dsimp only
    rw [if_pos (hfinal e rfl), if_pos (hfinal e rfl)]
    exact ⟨rfl, rfl⟩

end RetryPolicy

namespace Transport

section

variable {n : Notification} {inner : List Layer} {token : Token} {deadline : Option Nat}
  {state : Endpoint × Timeline} {result : Except PushError Unit}

theorem result_logging (level : Log.Level)
    (h : (pushThrough n inner token deadline state).1 = some result) :
    (pushThrough n (.logging level :: inner) token deadline state).1 = some result := by
  rw [pushThrough_logging]
  generalize pushThrough n inner token deadline state = out at h ⊢
  obtain ⟨result', e, tl⟩ := out
  obtain rfl : result' = some result := h
  rcases result with _ | _
  · rfl
  · rfl

theorem result_timeout (limit : Duration)
    (h : (pushThrough n inner (state.2.issue token).1
      (some (earliest (state.2.now + limit.ticks) deadline))
      (state.1, (state.2.issue token).2)).1 = some result) :
    (pushThrough n (.timeout limit :: inner) token deadline state).1 = some result := by
  rw [pushThrough_timeout]
  generalize pushThrough n inner _ _ _ = out at h ⊢
  obtain ⟨result', e, tl⟩ := out
  obtain rfl : result' = some result := h
  rfl

/-- Final results end repetition at once. -/
theorem result_retry (policy : RetryPolicy) (hgoes : state.2.isCancelled token = false)
    (h : (pushThrough n inner token deadline state).1 = some result) (hfinal : IsFinal result) :
    (pushThrough n (.retry policy :: inner) token deadline state).1 = some result ∧
      policy.starts state.1.key token deadline (pushThrough n inner token deadline)
        (max 1 policy.tries - 1) 0 state = [state] := by
  obtain ⟨e, tl⟩ := state
  generalize hinner : pushThrough n inner token deadline (e, tl) = out at h
  obtain ⟨result', e', tl'⟩ := out
  obtain rfl : result' = some result := h
  rw [pushThrough_retry]
  exact policy.attempts_of_isFinal e.key deadline _ (max 1 policy.tries - 1) 0 hgoes hinner hfinal

end

/-- The endpoint is reached at once. If what it says then is final and comes in time, this is the result,
and it is not reached again. -/
theorem exists_basePushes_eq (n : Notification) (layers : List Layer) {token : Token}
    {deadline : Option Nat} {e : Endpoint} {tl : Timeline} (h : Undisturbed token deadline e tl) :
    ∃ b rest, basePushes n layers token deadline (e, tl) = b :: rest ∧ b.endpoint = e ∧
      b.timeline.now = tl.now ∧ ∀ result e' tl',
        Endpoint.push n b.token none (b.endpoint, b.timeline) = (some result, e', tl') →
        IsFinal result → IsWithin tl'.now deadline →
        (∀ limit, .timeout limit ∈ layers → tl'.now ≤ tl.now + limit.ticks) →
          (pushThrough n layers token deadline (e, tl)).1 = some result ∧ rest = [] := by
  induction layers generalizing token deadline tl with
  | nil =>
    refine ⟨_, [], rfl, rfl, rfl, fun result e' tl' heq _ hend _ => ⟨?_, rfl⟩⟩
    dsimp only at heq
    rw [pushThrough, (Endpoint.cuts_push n token).eq_of_isWithin h.due_eq h.isWithin, heq]
    · rw [heq]
      rfl
    · rw [heq]
      exact hend
  | cons layer inner ih =>
    cases layer with
    | logging level =>
      obtain ⟨b, rest, hbase, he, hnow, hfirst⟩ := ih h
      refine ⟨b, rest, (basePushes_logging inner token deadline (e, tl) level).trans hbase, he, hnow,
        fun result e' tl' heq hfinal hend hlimits => ?_⟩
      obtain ⟨hresult, hrest⟩ := hfirst result e' tl' heq hfinal hend fun limit hlimit =>
        hlimits limit (List.mem_cons_of_mem _ hlimit)
      exact ⟨result_logging level hresult, hrest⟩
    | timeout limit =>
      obtain ⟨b, rest, hbase, he, hnow, hfirst⟩ := ih (h.enter limit.ticks)
      refine ⟨b, rest, (basePushes_timeout inner token deadline (e, tl) limit).trans hbase, he, hnow,
        fun result e' tl' heq hfinal hend hlimits => ?_⟩
      have hlimit := le_earliest (hlimits limit List.mem_cons_self) hend
      obtain ⟨hresult, hrest⟩ := hfirst result e' tl' heq hfinal
        (fun d hd => Option.some.inj hd ▸ hlimit) fun limit hlimit =>
          hlimits limit (List.mem_cons_of_mem _ hlimit)
      exact ⟨result_timeout limit hresult, hrest⟩
    | retry policy =>
      obtain ⟨b, rest, hbase, he, hnow, hfirst⟩ := ih h
      obtain ⟨more, hmore⟩ := policy.exists_starts_eq e.key deadline
        (pushThrough n inner token deadline) (max 1 policy.tries - 1) 0 h.goes e
      refine ⟨b, rest ++ more.flatMap (basePushes n inner token deadline), ?_, he, hnow,
        fun result e' tl' heq hfinal hend hlimits => ?_⟩
      · rw [basePushes_retry, hmore, List.flatMap_cons, hbase, List.cons_append]
      · obtain ⟨hresult, hrest⟩ := hfirst result e' tl' heq hfinal hend fun limit hlimit =>
          hlimits limit (List.mem_cons_of_mem _ hlimit)
        obtain ⟨hresult, hstarts⟩ := result_retry policy h.goes hresult hfinal
        obtain rfl : more = [] := List.tail_eq_of_cons_eq (hmore.symm.trans hstarts)
        rw [hrest]
        exact ⟨hresult, rfl⟩

/-! ### Stacks -/

/-- The endpoint with layers put around it one after another. -/
def stack (e : Endpoint) (added : List Layer) : Transport :=
  added.foldl wrap (.ofEndpoint e)

theorem foldl_wrap (added : List Layer) (t : Transport) :
    added.foldl wrap t = ⟨added.reverse ++ t.layers, t.endpoint⟩ := by
  induction added generalizing t with
  | nil => rfl
  | cons layer rest ih =>
    rw [List.foldl_cons, ih, List.reverse_cons, List.append_assoc]
    rfl

theorem stack_eq (e : Endpoint) (added : List Layer) : stack e added = ⟨added.reverse, e⟩ := by
  rw [stack, foldl_wrap]
  exact congrArg (Transport.mk · e) (List.append_nil _)

/-- The pushes of which a push of a transport consists. -/
def pushesOf (t : Transport) (n : Notification) (token : Token) (tl : Timeline) : List Push :=
  pushes n t.layers token none (t.endpoint, tl)

theorem push_stack (n : Notification) (e : Endpoint) (added : List Layer) (token : Token)
    (tl : Timeline) : push n token (stack e added, tl) =
      ((pushThrough n added.reverse token none (e, tl)).1,
        ⟨added.reverse, (pushThrough n added.reverse token none (e, tl)).2.1⟩,
        (pushThrough n added.reverse token none (e, tl)).2.2) := by
  rw [stack_eq]
  rfl

theorem pushesOf_stack (n : Notification) (e : Endpoint) (added : List Layer) (token : Token)
    (tl : Timeline) :
    (stack e added).pushesOf n token tl = pushes n added.reverse token none (e, tl) := by
  rw [stack_eq]
  rfl

/-- A stack has the key and the check of its endpoint, and a push of it keeps within the bounds that its
layers set, each of them by itself. -/
structure KeepsBounds (n : Notification) (e : Endpoint) (added : List Layer) (token : Token)
    (tl : Timeline) : Prop where
  key_eq : (stack e added).key = e.key
  hasCheck_eq : (stack e added).hasCheck = e.hasCheck
  check_eq : ∀ token tl,
    (check token (stack e added, tl)).1 = (Endpoint.check token (e, tl)).1 ∧
    (check token (stack e added, tl)).2.1.endpoint = (Endpoint.check token (e, tl)).2.1 ∧
    (check token (stack e added, tl)).2.2 = (Endpoint.check token (e, tl)).2.2
  /-- What the endpoint was given, it was given in these pushes. -/
  arrivals_eq : (push n token (stack e added, tl)).2.2.arrivals = tl.arrivals ++
    (((stack e added).pushesOf n token tl).filter Push.isBase).filterMap (Push.arrival? n)
  length_le : (((stack e added).pushesOf n token tl).filter Push.isBase).length ≤
    (added.map Layer.attempts).prod
  keepsLimit : ∀ p ∈ (stack e added).pushesOf n token tl, ∀ limit inner,
    p.layers = .timeout limit :: inner → p.KeepsLimit n limit inner
  /-- No token is cancelled while the layers that were given it are at work. -/
  goes : ∀ p ∈ (stack e added).pushesOf n token tl,
    p.timeline.isCancelled p.token = false ∧ (p.outcome n).2.2.isCancelled p.token = false
  remains : Undisturbed token none (push n token (stack e added, tl)).2.1.endpoint
    (push n token (stack e added, tl)).2.2
  /-- If the first result of the endpoint is final and comes in time, it counts. -/
  first : ∃ b rest, ((stack e added).pushesOf n token tl).filter Push.isBase = b :: rest ∧
    b.endpoint = e ∧ b.timeline.now = tl.now ∧ ∀ result e' tl',
      Endpoint.push n b.token none (b.endpoint, b.timeline) = (some result, e', tl') →
      IsFinal result → (∀ limit, .timeout limit ∈ added → tl'.now ≤ tl.now + limit.ticks) →
        (push n token (stack e added, tl)).1 = some result ∧ rest = []
  deliveries_eq : (push n token (stack e added, tl)).2.2.deliveries = tl.deliveries ++
    ((stack e added).pushesOf n token tl).filterMap (Push.delivery? n)

/-- Only pushes to the endpoint give it something. -/
theorem filterMap_arrival (n : Notification) (ps : List Push) :
    (ps.filter Push.isBase).filterMap (Push.arrival? n) = ps.filterMap (Push.arrival? n) := by
  rw [List.filterMap_filter]
  refine List.filterMap_congr fun p _ => ?_
  obtain ⟨layers, token, deadline, e, tl⟩ := p
  cases layers <;> rfl

theorem stack_keeps_bounds (n : Notification) (e : Endpoint) (added : List Layer) (token : Token)
    (tl : Timeline) (h : Undisturbed token none e tl) : KeepsBounds n e added token tl where
  key_eq := by rw [key_eq, stack_eq]
  hasCheck_eq := by rw [hasCheck_eq, stack_eq]
  check_eq token tl := by
    rw [check_eq, stack_eq]
    exact ⟨rfl, rfl, rfl⟩
  arrivals_eq := by
    rw [push_stack, pushesOf_stack, filterMap_arrival]
    exact (tally_arrivals n).pushThrough _ _ _ _
  length_le := by
    rw [pushesOf_stack, ← ((List.reverse_perm added).map Layer.attempts).prod_eq]
    exact length_basePushes_le n _ _ _ _
  keepsLimit := by
    rw [pushesOf_stack]
    intro p hp limit inner hlayers
    have hbefore := ((conduct_undisturbed n).pushThrough _ _ _ (e, tl) h).2 p hp
    obtain ⟨layers, token', deadline, e', tl'⟩ := p
    obtain rfl : layers = .timeout limit :: inner := hlayers
    exact Push.keepsLimit hbefore
  goes := by
    rw [pushesOf_stack]
    intro p hp
    have hbefore := ((conduct_undisturbed n).pushThrough _ _ _ (e, tl) h).2 p hp
    exact ⟨hbefore.goes,
      ((conduct_undisturbed n).pushThrough p.layers _ _ (p.endpoint, p.timeline) hbefore).1.goes⟩
  remains := by
    rw [push_stack]
    exact ((conduct_undisturbed n).pushThrough _ _ _ (e, tl) h).1
  first := by
    obtain ⟨b, rest, hbase, he, hnow, hfirst⟩ := exists_basePushes_eq n added.reverse h
    rw [push_stack, pushesOf_stack]
    refine ⟨b, rest, hbase, he, hnow, fun result e' tl' heq hfinal hlimits => ?_⟩
    exact hfirst result e' tl' heq hfinal nofun fun limit hlimit =>
      hlimits limit (List.mem_reverse.mp hlimit)
  deliveries_eq := by
    rw [push_stack, pushesOf_stack]
    exact (tally_deliveries n).pushThrough _ _ _ _

/-- Is busy at first, then slow, and then quick. -/
def moodyEndpoint : Endpoint :=
  .scripted "moody" [⟨true, 10, false, false, some (.transient, "busy")⟩,
    ⟨true, 5000, false, false, none⟩] none

/-- Three attempts of a second each, with a second in between. -/
def moodyLayers : List Layer :=
  [.timeout (.ofSeconds 1), .logging .debug, .retry ⟨3, .constant (.ofSeconds 1)⟩, .logging .info]

theorem stack_keeps_bounds_sample : Undisturbed .delivery none moodyEndpoint (.start none) ∧
    (push sampleMessage .delivery (stack moodyEndpoint moodyLayers, .start none)).2.2.now = 3010 ∧
    KeepsBounds sampleMessage moodyEndpoint moodyLayers .delivery (.start none) := by
  have hundisturbed : Undisturbed .delivery none moodyEndpoint (.start none) := by
    refine ⟨rfl, rfl, rfl, nofun, List.cons_ne_nil _ _, ?_, nofun⟩
    rintro own above ⟨⟩ habove
    exact (habove rfl).elim
  exact ⟨hundisturbed, by decide +kernel, stack_keeps_bounds _ _ _ _ _ hundisturbed⟩

end Transport

end Herald
