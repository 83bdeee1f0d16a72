import Herald.Proofs.Dispatch.Visits
import Herald.Proofs.Server.Answer
import Mathlib

/-!
Pushes. What a request with an event sends is told as the dispatches of its notifications, and each of
these as the visits that the transports are paid. So a wish, as long as it is stored, decides over pushes.
-/

namespace Herald

namespace Dispatch

/-- The keys of the transports that are visited. -/
def keys (d : Dispatch) : List String :=
  d.visits.map fun v => v.transport.key

/-- Dispatches one after another, for each of which its visits account, with nothing but reports in between.
If one of them does not end, it is the last. -/
inductive InTurn (token : Token) :
    List Dispatch → Notifier × Timeline → (ended : Bool) → Notifier × Timeline → Prop
  | done (state : Notifier × Timeline) : InTurn token [] state true state
  | next {d : Dispatch} {rest : List Dispatch} {notifier notifier' : Notifier}
      {tl left tl' : Timeline} {result : Except DispatchError Unit} {ended : Bool}
      {state : Notifier × Timeline}
      (haccounts : notifier.Accounts d.notification token tl d.visits d.unvisited left)
      (hpush : Notifier.push d.notification token (notifier, tl) = (some result, notifier', tl'))
      (records : Log) (hrest : InTurn token rest (notifier', tl'.remark records) ended state) :
      InTurn token (d :: rest) (notifier, tl) ended state
  | endless {d : Dispatch} {notifier notifier' : Notifier} {tl left tl' : Timeline}
      (haccounts : notifier.Accounts d.notification token tl d.visits d.unvisited left)
      (hpush : Notifier.push d.notification token (notifier, tl) = (none, notifier', tl')) :
      InTurn token [d] (notifier, tl) false (notifier', tl')

variable {token : Token} {ns : List Notification} {dispatches : List Dispatch}
  {state state' : Notifier × Timeline} {ended : Bool}

/-- Whatever is dispatched, there are visits that account for it. -/
theorem exists_inTurn (h : Server.Dispatched token ns state ended state') :
    ∃ dispatches, InTurn token dispatches state ended state' ∧
      dispatches.map notification <+: ns ∧ (ended = true → dispatches.map notification = ns) := by
  induction h with
  | nil state => exact ⟨[], .done state, List.prefix_refl _, fun _ => rfl⟩
  | @cons n rest notifier _ tl _ _ _ _ hpush records _ ih =>
    obtain ⟨dispatches, hrest, hprefix, hall⟩ := ih
    obtain ⟨d, rfl, left, haccounts⟩ := notifier.exists_accounts n token tl
    refine ⟨d :: dispatches, .next haccounts hpush records hrest, ?_, fun hended => ?_⟩
    · exact (List.prefix_cons_inj d.notification).mpr hprefix
    · exact congrArg (d.notification :: ·) (hall hended)
  | @endless n rest notifier _ tl _ hpush =>
    obtain ⟨d, rfl, left, haccounts⟩ := notifier.exists_accounts n token tl
    exact ⟨[d], .endless haccounts hpush, List.prefix_append [d.notification] rest, nofun⟩

namespace InTurn

/-- In every visit the preferences are heeded that the notifier had at first. -/
theorem heeds (h : InTurn token dispatches state ended state') :
    ∀ d ∈ dispatches, ∀ v ∈ d.visits, v.Heeds state.1.preferences d.notification token := by
  induction h with
  | done => simp
  | next haccounts hpush _ _ ih =>
    rw [(Notifier.kept_of_push hpush).1] at ih
    exact List.forall_mem_cons.mpr ⟨haccounts.heeds, ih⟩
  | endless haccounts => exact List.forall_mem_cons.mpr ⟨haccounts.heeds, by simp⟩

/-- Every dispatch visits the transports in order; only the last one can leave some of them out. -/
theorem keys_prefix (h : InTurn token dispatches state ended state') :
    ∀ d ∈ dispatches, d.keys <+: state.1.transports.map Transport.key ∧
      (ended = true → d.keys = state.1.transports.map Transport.key) := by
  induction h with
  | done => simp
  | @next d _ _ _ _ _ _ _ _ _ haccounts hpush _ _ ih =>
    rw [(Notifier.kept_of_push hpush).2.1] at ih
    refine List.forall_mem_cons.mpr ⟨?_, ih⟩
    have hall : d.unvisited = [] := by
      obtain ⟨-, hunvisited⟩ | ⟨hnone, -⟩ := haccounts.ends
      · exact hunvisited
      · rw [hpush] at hnone
        cases hnone
    rw [haccounts.keys_eq, hall]
    simp [keys]
  | endless haccounts =>
    rw [haccounts.keys_eq]
    simp [keys]

theorem isCancelled (h : InTurn token dispatches state ended state')
    (hcancelled : state.2.isCancelled token) : state'.2.isCancelled token := by
  induction h with
  | done => exact hcancelled
  | next _ hpush _ _ ih => exact ih ((Notifier.kept_of_push hpush).2.2 hcancelled)
  | endless _ hpush => exact (Notifier.kept_of_push hpush).2.2 hcancelled

/-- Transports are late only if the token is cancelled. -/
theorem isCancelled_of_isLate (h : InTurn token dispatches state ended state') :
    ∀ d ∈ dispatches, ∀ v ∈ d.visits, v.IsLate token → state'.2.isCancelled token := by
  induction h with
  | done => simp
  | next haccounts hpush _ hrest ih =>
    refine List.forall_mem_cons.mpr ⟨fun v hv hlate => hrest.isCancelled ?_, ih⟩
    have hcancelled := haccounts.isCancelled_of_isLate hv hlate
    rw [hpush] at hcancelled
    exact hcancelled
  | endless haccounts hpush =>
    refine List.forall_mem_cons.mpr ⟨fun v hv hlate => ?_, by simp⟩
    have hcancelled := haccounts.isCancelled_of_isLate hv hlate
    rw [hpush] at hcancelled
    exact hcancelled

end InTurn

end Dispatch

namespace Server

variable {v : Visit} {s : Server} {dispatches : List Dispatch}

namespace Visit

/-- The request comes with an event. -/
def Submits (v : Visit) (s : Server) : Prop :=
  v.request.method = "POST" ∧ ∃ segment, s.route v.request = some (.event segment)

/-- These dispatches are all that is sent in the visit: those of its notifications, in order. -/
structure Delivers (v : Visit) (s : Server) (dispatches : List Dispatch) : Prop where
  course : ∃ before after notifier tl',
    Dispatch.InTurn v.token dispatches
        (s.notifier, (v.timeline.issue .requests).2.remark before) (v.outcome s).1.isSome
        (notifier, tl') ∧
      (v.outcome s).2 =
        ({ s with transports := notifier.transports }, (tl'.remark after).cancel v.token)
  order : dispatches.map Dispatch.notification <+: s.requestNotifications v.arrival v.request
  /-- If the request is answered, nothing is left out. -/
  complete : (v.outcome s).1.isSome →
    dispatches.map Dispatch.notification = s.requestNotifications v.arrival v.request ∧
      ∀ d ∈ dispatches, d.keys = s.transportKeys

theorem exists_delivers (h : v.Submits s) : ∃ dispatches, v.Delivers s dispatches := by
  obtain ⟨hmethod, segment, hroute⟩ := h
  obtain ⟨before, after, notifier, tl', hdispatched, hout⟩ :=
    (settles_postResponse hmethod hroute v.arrival v.timeline).pushes
  obtain ⟨dispatches, hinTurn, horder, hall⟩ := Dispatch.exists_inTurn hdispatched
  rw [← requestNotifications_event hmethod hroute v.arrival] at horder hall
  refine ⟨dispatches, ⟨before, after, notifier, tl', hinTurn, hout⟩, horder, fun hanswered => ?_⟩
  exact ⟨hall hanswered, fun d hd => (hinTurn.keys_prefix d hd).2 hanswered⟩

namespace Delivers

theorem heeds (h : v.Delivers s dispatches) :
    ∀ d ∈ dispatches, ∀ visit ∈ d.visits, visit.Heeds s.preferences d.notification v.token := by
  obtain ⟨_, _, _, _, hinTurn, -⟩ := h.course
  exact hinTurn.heeds

theorem calledOff (h : v.Delivers s dispatches) :
    ∀ d ∈ dispatches, ∀ visit ∈ d.visits, visit.IsLate v.token → v.CalledOff s := by
  obtain ⟨_, after, _, tl', hinTurn, hout⟩ := h.course
  intro d hd visit hvisit hlate
  exact ⟨tl'.remark after, by rw [hout], hinTurn.isCancelled_of_isLate d hd visit hvisit hlate⟩

end Delivers

end Visit

/-! ### Wishes -/

/-- A wish that was sent counts for every later event, until other preferences are sent for the same user.
A notification for the user is not pushed over a transport that the user does not want, and it is pushed
over one that the user wants, unless the request is called off before. -/
theorem stored_wish_counts_until_replaced (s : Server) (hunique : s.store.keys.Nodup)
    (earlier between : List Visit) (put later : Visit) (key : String) (m : PreferenceMap)
    (hput : put.Replaces (s.after earlier) key)
    (hbody : Json.decodeBytes preferencesDecoder put.request.body = .ok m)
    (hspares : (s.after (earlier ++ [put])).Spares key between)
    (hsubmits : later.Submits (s.after (earlier ++ put :: between))) :
    ∃ dispatches, later.Delivers (s.after (earlier ++ put :: between)) dispatches ∧
      ∀ d ∈ dispatches, (s.after (earlier ++ put :: between)).ResolvesTo d.notification key →
        ∀ visit ∈ d.visits,
          (m.wish? d.notification.context.type visit.transport.key = some false →
            visit.PassesBy ∧ ¬visit.Pushes (s.after (earlier ++ put :: between)).preferences
              d.notification later.token) ∧
          (m.wish? d.notification.context.type visit.transport.key = some true →
            visit.Pushes (s.after (earlier ++ put :: between)).preferences d.notification
                later.token ∨
              visit.IsLate later.token ∧
                later.CalledOff (s.after (earlier ++ put :: between))) := by
  have hkeys : (s.after earlier).store.keys.Nodup := keys_after earlier hunique ▸ hunique
  have hstored := put.prefers_of_replaces hkeys hput hbody
  rw [after_append] at hspares hsubmits ⊢
  have hprefers : ((s.after earlier).after (put :: between)).store.Prefers key m :=
    prefers_after between (put.keys_outcome hkeys ▸ hkeys) hstored hspares
  obtain ⟨dispatches, hdelivers⟩ := Visit.exists_delivers hsubmits
  refine ⟨dispatches, hdelivers, fun d hd hresolves visit hvisit => ?_⟩
  have hheeds := hdelivers.heeds d hd visit hvisit
  rw [hheeds.pushes_iff]
  refine ⟨fun hwish => ?_, fun hwish => ?_⟩
  · have hspared : ¬visit.IsInvoked _ d.notification later.token := fun hinvoked =>
      hinvoked.2 (value_wants_of_prefers hprefers hresolves hwish)
    exact ⟨hheeds.passesBy hspared, hspared⟩
  · by_cases hlate : visit.IsLate later.token
    · exact .inr ⟨hlate, hdelivers.calledOff d hd visit hvisit hlate⟩
    · refine .inl ⟨hlate, fun hunwanted => ?_⟩
      unfold Visit.IsUnwanted at hunwanted
      rw [value_wants_of_prefers hprefers hresolves hwish] at hunwanted
      cases hunwanted

/-! An example: the user opts out, and then, after a look at the health of the server, gets a message. -/

/-- Somebody asks whether the server is well. -/
def sampleProbe : Visit where
  arrival := sampleArrival
  request := ⟨"GET", "/healthz", [], []⟩
  timeline := .start none .requests

/-- The server of the example, with a user who has opted out. -/
def optedOutServer : Server :=
  { sampleServer with store := .ofUsers [⟨"ada", sampleAddress, sampleWishes⟩] }

theorem after_optedOut : sampleServer.after [samplePut, sampleProbe] = optedOutServer := by
  have hstore : sampleServer.store.setPreferences "ada" sampleWishes = .ok optedOutServer.store := rfl
  have hput : samplePut.Replaces sampleServer "ada" := replaces_samplePut (by decide) hstore
  obtain ⟨key, m, store, hreplaces, hdecode, hset, heq⟩ | ⟨hspares, -⟩ :=
    store_handle samplePut.arrival samplePut.request sampleServer samplePut.timeline
  · cases hput.key_eq hreplaces
    cases decodeBytes_samplePut.symm.trans hdecode
    cases hset.symm.trans hstore
    have hprobe : (sampleProbe.outcome optedOutServer).2.1 = optedOutServer := by
      have hroute : optedOutServer.route sampleProbe.request = some .health := by decide
      rw [Visit.outcome, handle_of_allows _ _ hroute rfl]
      rfl
    rw [after, Visit.outcome, heq]
    exact hprobe
  · exact absurd hput (hspares "ada")

theorem requestNotifications_optedOut :
    (optedOutServer.requestNotifications sampleArrival samplePost.request).map
        (fun n => (n.recipient, n.context.type)) = [(sampleAddress, Message.eventType)] := by
  have hroute : optedOutServer.route samplePost.request = some (.event "example") := by decide
  have hkey : Http.segmentName "example" = some "example" := by cbv
  have hsize : ¬largestBody < samplePost.request.body.length := by cbv
  rw [requestNotifications_event rfl hroute, postedNotifications, hkey]
  dsimp only
  rw [if_neg hsize]
  cbv

/-- The message is dispatched to the user, and the writer is visited for it. -/
theorem exists_dispatch_optedOut {dispatches : List Dispatch}
    (h : samplePost.Delivers optedOutServer dispatches) :
    ∃ d ∈ dispatches, optedOutServer.ResolvesTo d.notification "ada" ∧
      d.notification.context.type = Message.eventType ∧
      ∃ visit ∈ d.visits, visit.transport.key = "writer" := by
  have hroute : optedOutServer.route samplePost.request = some (.event "example") := by decide
  have hanswered : (samplePost.outcome optedOutServer).1.isSome := by
    obtain hsome | ⟨-, hprompt⟩ := answers_postResponse rfl hroute sampleArrival samplePost.timeline
    · exact Option.isSome_iff_exists.mpr ⟨_, hsome⟩
    · exact absurd hprompt (by decide)
  obtain ⟨hall, hkeys⟩ := h.complete hanswered
  have hmade := requestNotifications_optedOut
  rw [show sampleArrival = samplePost.arrival from rfl, ← hall, List.map_map] at hmade
  obtain ⟨d, hd, hdispatch⟩ := List.mem_map.mp (hmade ▸ List.mem_singleton_self _)
  obtain ⟨hrecipient, htype⟩ := Prod.mk.inj hdispatch
  have hresolves : optedOutServer.ResolvesTo d.notification "ada" := by
    rw [ResolvesTo, hrecipient]
    exact ⟨_, rfl, rfl⟩
  have hwriter : "writer" ∈ d.keys := hkeys d hd ▸ by decide
  exact ⟨d, hd, hresolves, htype, List.mem_map.mp hwriter⟩

theorem stored_wish_counts_until_replaced_sample :
    sampleServer.store.keys.Nodup ∧ samplePut.Replaces sampleServer "ada" ∧
      Json.decodeBytes preferencesDecoder samplePut.request.body = .ok sampleWishes ∧
      (sampleServer.after [samplePut]).Spares "ada" [sampleProbe] ∧
      samplePost.Submits (sampleServer.after [samplePut, sampleProbe]) ∧
      ∃ dispatches, samplePost.Delivers (sampleServer.after [samplePut, sampleProbe]) dispatches ∧
        ∃ d ∈ dispatches,
          (sampleServer.after [samplePut, sampleProbe]).ResolvesTo d.notification "ada" ∧
            ∃ visit ∈ d.visits, visit.transport.key = "writer" ∧ visit.PassesBy ∧
              ¬visit.Pushes (sampleServer.after [samplePut, sampleProbe]).preferences
                d.notification samplePost.token := by
  have hunique : sampleServer.store.keys.Nodup := by decide
  have hput : samplePut.Replaces sampleServer "ada" := replaces_samplePut (by decide) rfl
  have hspares : (sampleServer.after [samplePut]).Spares "ada" [sampleProbe] :=
    ⟨fun h => absurd h.method (by decide), trivial⟩
  have hroute : optedOutServer.route samplePost.request = some (.event "example") := by decide
  have hsubmits : samplePost.Submits (sampleServer.after [samplePut, sampleProbe]) :=
    ⟨rfl, "example", after_optedOut ▸ hroute⟩
  obtain ⟨dispatches, hdelivers, hwishes⟩ := stored_wish_counts_until_replaced sampleServer hunique
    [] [sampleProbe] samplePut samplePost "ada" sampleWishes hput decodeBytes_samplePut hspares
    hsubmits
  refine ⟨hunique, hput, decodeBytes_samplePut, hspares, hsubmits, dispatches, hdelivers, ?_⟩
  simp only [List.nil_append] at hdelivers hwishes
  rw [after_optedOut] at hdelivers hwishes ⊢
  obtain ⟨d, hd, hresolves, htype, visit, hvisit, hkey⟩ := exists_dispatch_optedOut hdelivers
  have hwish : sampleWishes.wish? d.notification.context.type visit.transport.key = some false := by
    rw [htype, hkey]
    rfl
  obtain ⟨hpassesBy, hnot⟩ := (hwishes d hd hresolves visit hvisit).1 hwish
  exact ⟨d, hd, hresolves, visit, hvisit, hkey, hpassesBy, hnot⟩

end Server

end Herald
