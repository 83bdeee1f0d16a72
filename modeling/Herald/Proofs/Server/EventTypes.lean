import Herald.Proofs.Preference.Hydration
import Herald.Proofs.Processor.Origin
import Herald.Proofs.Server.History
import Herald.Proofs.Webhook.Hook
import Herald.Server.Startup

/-!
What is declared is all there is. Once the startup checks have passed, no source reads an event of a
type that it does not declare, and no transport is asked about a type that users are not shown.
-/

namespace Herald

open Result

namespace Source

variable {source : Source} {hook : Hook} {allowlist : List String} {arrival : Arrival}
  {submission : Submission} {e : Event}

theorem delivers_of_checkHook (h : checkHook hook allowlist = .ok ()) {event : String}
    (hevent : event ∈ allowlist) : hook.delivers event := by
  unfold checkHook at h
  dsimp only at h
  split at h
  · cases h
  · split at h
    · cases h
    · rename_i hknown
      simpa using List.find?_eq_none.mp hknown event hevent

theorem type_of_readMessage (h : readMessage arrival submission = .ok e) :
    e.context.type = Message.eventType := by
  unfold readMessage Context.make Context.ofParts at h
  obtain ⟨m, -, h⟩ := bind_eq_ok.mp h
  obtain ⟨context, hcontext, h⟩ := bind_eq_ok.mp h
  cases h
  split at hcontext
  · cases hcontext
  · split at hcontext
    · cases hcontext
    · cases hcontext
      rfl

/-- The type of what is read does not depend on when it arrives. -/
theorem type_eq_of_read (hbuiltIn : source.isBuiltIn) {arrival' : Arrival} {e' : Event}
    (h : (source.read arrival submission).value = .ok (some e))
    (h' : (source.read arrival' submission).value = .ok (some e')) :
    e'.context.type = e.context.type := by
  cases source with
  | messages =>
    obtain ⟨_, hread, he⟩ := map_eq_ok.mp h
    obtain ⟨_, hread', he'⟩ := map_eq_ok.mp h'
    cases he
    cases he'
    rw [type_of_readMessage hread, type_of_readMessage hread']
  | webhook hook allowlist =>
    obtain ⟨d, hd, he⟩ := value_read_eq_some_iff.mp h
    obtain ⟨d', hd', he'⟩ := value_read_eq_some_iff.mp h'
    obtain rfl : d = d' := Except.ok.inj (hd.symm.trans hd')
    obtain ⟨-, name, body, -, -, -, rfl⟩ := Hook.read_eq_ok_iff.mp hd
    rw [(conveys_of_ofDelivery he).type, (conveys_of_ofDelivery he').type]
  | custom work types check => cases hbuiltIn

/-- A source whose startup check passes declares the types of all events that it reads. -/
theorem type_mem_of_read (hbuiltIn : source.isBuiltIn) {token : Token}
    (hfit : ∀ check, source.startupCheck = some check → check.Passes token)
    (h : (source.read arrival submission).value = .ok (some e)) :
    e.context.type ∈ source.eventTypes.map EventType.key := by
  cases source with
  | messages =>
    obtain ⟨e', hread, he⟩ := map_eq_ok.mp h
    cases he
    rw [type_of_readMessage hread]
    exact List.mem_singleton_self Message.eventType
  | webhook hook allowlist =>
    have hcheck : checkHook hook allowlist = .ok () := Check.passes_of_iff.mp (hfit _ rfl)
    obtain ⟨d, hd, he⟩ := value_read_eq_some_iff.mp h
    obtain ⟨-, name, body, hallowed, -, -, rfl⟩ := Hook.read_eq_ok_iff.mp hd
    obtain ⟨offer, hoffer, hname⟩ := List.any_eq_true.mp (delivers_of_checkHook hcheck hallowed)
    obtain rfl := beq_iff_eq.mp hname
    rw [eventTypes, (conveys_of_ofDelivery he).type, List.map_map]
    refine List.mem_map.mpr ⟨offer, List.mem_filter.mpr ⟨hoffer, by simpa using hallowed⟩, ?_⟩
    simp [Hook.eventType, toString]
  | custom work types check => cases hbuiltIn

end Source

namespace Server

variable {s s' : Server}

theorem mem_eventTypes {source : Source} (hsource : source ∈ s.sources.values) {type : String}
    (htype : type ∈ source.eventTypes.map EventType.key) : type ∈ s.eventTypes := by
  unfold eventTypes
  refine Ascending.mem_ofList_id.mpr ?_
  obtain ⟨t, ht, rfl⟩ := List.mem_map.mp htype
  exact List.mem_map_of_mem (List.mem_flatMap.mpr ⟨source, hsource, ht⟩)

/-! ### What stays as it was set up -/

/-- Both servers have the same sources and processors. -/
structure SetUpAlike (s s' : Server) : Prop where
  sources : s'.sources = s.sources
  processors : s'.processors = s.processors

theorem SetUpAlike.trans {s'' : Server} (h : SetUpAlike s s') (h' : SetUpAlike s' s'') :
    SetUpAlike s s'' :=
  ⟨h'.sources.trans h.sources, h'.processors.trans h.processors⟩

theorem Worked.setUpAlike (h : Worked s s') : SetUpAlike s s' := by
  rw [h.eq]
  exact ⟨rfl, rfl⟩

theorem setUpAlike_validate (token : Token) (s : Server) (tl : Timeline) :
    SetUpAlike s (validate token (s, tl)).2.1 := by
  unfold validate
  dsimp only
  split
  · split <;> exact ⟨rfl, rfl⟩
  · exact ⟨rfl, rfl⟩

theorem setUpAlike_outcome (v : Visit) (s : Server) : SetUpAlike s (v.outcome s).2.1 := by
  obtain ⟨key, m, store, -, -, -, heq⟩ | ⟨-, hworked⟩ :=
    store_handle v.arrival v.request s v.timeline
  · rw [Visit.outcome, heq]
    exact ⟨rfl, rfl⟩
  · exact hworked.setUpAlike

theorem setUpAlike_after (visits : List Visit) (s : Server) : SetUpAlike s (s.after visits) := by
  induction visits generalizing s with
  | nil => exact ⟨rfl, rfl⟩
  | cons v rest ih => exact (setUpAlike_outcome v s).trans (ih _)

/-! ### Checks -/

/-- Where all checks together pass, so does each of them. -/
theorem passes_of_runChecks {token : Token} {checks : List (String × Option Check)} {tl : Timeline}
    (h : (runChecks token checks tl).1 = some (.ok ())) :
    ∀ named ∈ checks, ∀ check, named.2 = some check → check.Passes token := by
  induction checks generalizing tl with
  | nil => exact List.forall_mem_nil _
  | cons named rest ih =>
    obtain ⟨component, _ | check⟩ := named
    · exact List.forall_mem_cons.mpr ⟨nofun, ih h⟩
    · unfold runChecks at h
      split at h
      · rename_i hcheck
        refine List.forall_mem_cons.mpr ⟨?_, ih h⟩
        rintro _ ⟨⟩
        exact ⟨_, _, hcheck⟩
      · rename_i hfailed
        exact (hfailed _ (Prod.ext h rfl)).elim

theorem fit_of_validate {token : Token} {tl : Timeline}
    (h : (validate token (s, tl)).1 = some (.ok ())) {source : Source}
    (hsource : source ∈ s.sources.values) :
    ∀ check, source.startupCheck = some check → check.Passes token := by
  have hearly : (runChecks token s.earlyChecks tl).1 = some (.ok ()) := by
    unfold validate at h
    dsimp only at h
    split at h
    · rename_i heq
      rw [heq]
    · rename_i heq
      rw [heq]
      exact h
  obtain ⟨⟨key, source⟩, hmem, rfl⟩ := List.mem_map.mp hsource
  exact passes_of_runChecks hearly _
    (List.mem_append_left _ (List.mem_map_of_mem hmem))

/-! ### Dispatched events -/

theorem ran_of_mem_eventNotifications {e : Event} {n : Notification}
    (h : n ∈ s.eventNotifications e) :
    ∃ ns, (Processor.runChain s.store s.processors e).value = .ok ns ∧ n ∈ ns := by
  unfold eventNotifications at h
  split at h
  · rename_i ns hchain
    exact ⟨ns, hchain, h⟩
  · cases h

theorem read_of_mem_submissionNotifications {key : String} {arrival : Arrival}
    {submission : Submission} {n : Notification}
    (h : n ∈ s.submissionNotifications key arrival submission) :
    ∃ source e, s.sources.get? key = some source ∧
      (source.read arrival submission).value = .ok (some e) ∧ n ∈ s.eventNotifications e := by
  unfold submissionNotifications at h
  split at h
  · cases h
  · rename_i source hsource
    split at h
    · rename_i e hread
      exact ⟨source, e, hsource, hread, h⟩
    · cases h

theorem submitted_of_mem_requestNotifications {arrival : Arrival} {r : Http.Request}
    {n : Notification} (h : n ∈ s.requestNotifications arrival r) :
    ∃ key submission, n ∈ s.submissionNotifications key arrival submission := by
  unfold requestNotifications postedNotifications at h
  split at h
  · split at h
    · split at h
      · cases h
      · rename_i key _
        split at h
        · cases h
        · exact ⟨key, ⟨r.headers, r.body⟩, h⟩
    · cases h
  · cases h

/-- What a request gives notice of has been read by a source. -/
theorem exists_event_of_mem {arrival : Arrival} {r : Http.Request} {n : Notification}
    (h : n ∈ s.requestNotifications arrival r) :
    ∃ (key : String) (source : Source) (submission : Submission) (e : Event)
      (ns : List Notification),
      s.sources.get? key = some source ∧
        (source.read arrival submission).value = .ok (some e) ∧
        (Processor.runChain s.store s.processors e).value = .ok ns ∧ n ∈ ns := by
  obtain ⟨key, submission, h⟩ := submitted_of_mem_requestNotifications h
  obtain ⟨source, e, hsource, hread, h⟩ := read_of_mem_submissionNotifications h
  obtain ⟨ns, hchain, hn⟩ := ran_of_mem_eventNotifications h
  exact ⟨key, source, submission, e, ns, hsource, hread, hchain, hn⟩

/-- Preferences that are completed have a wish for every event type and transport of the server. -/
theorem isSome_wish?_hydrate (stored : PreferenceMap) {type transport : String} (hne : type ≠ "")
    (htype : type ∈ s.eventTypes) (htransport : transport ∈ s.transportKeys) :
    ((s.hydrate stored).value.wish? type transport).isSome := by
  obtain ⟨sample, hsample⟩ := PreferenceMap.exists_sample hne
  rw [hydrate, PreferenceMap.wish?_hydrate, if_pos ⟨htype, htransport⟩,
    PreferenceMap.sampleWish_of_ok _ _ _ hsample]
  rfl

/-- The types that the server declares cover all that happens: every event that is read, every
notification made of it, and everything that transports are asked about. -/
structure Declares (s : Server) : Prop where
  read : ∀ (key : String) (source : Source), s.sources.get? key = some source →
    ∀ (arrival : Arrival) (submission : Submission) (e : Event),
      (source.read arrival submission).value = .ok (some e) →
        e.context.type ∈ source.eventTypes.map EventType.key ∧ e.context.type ∈ s.eventTypes
  made : ∀ (e : Event) (store : UserStore) (processors : List Processor),
    (∀ p ∈ processors, p.isBuiltIn) → ∀ ns : List Notification,
      (Processor.runChain store processors e).value = .ok ns → ∀ n ∈ ns, n.context = e.context
  asked : (∀ p ∈ s.processors, p.isBuiltIn) → ∀ (v : Visit) (turns : List Turn),
    v.HasTurns s turns → ∀ turn ∈ turns, ∀ u : User,
      ((s.hydrate u.preferences).value.wish? turn.notification.context.type
        turn.transport).isSome

theorem declares_of_fit (hbuiltIn : ∀ source ∈ s.sources.values, source.isBuiltIn) {token : Token}
    (hfit : ∀ source ∈ s.sources.values, ∀ check, source.startupCheck = some check →
      check.Passes token) :
    s.Declares := by
  have hread : ∀ (key : String) (source : Source), s.sources.get? key = some source →
      ∀ (arrival : Arrival) (submission : Submission) (e : Event),
        (source.read arrival submission).value = .ok (some e) →
          e.context.type ∈ source.eventTypes.map EventType.key ∧
            e.context.type ∈ s.eventTypes := by
    intro key source hsource arrival submission e he
    have hmem := Dictionary.mem_values_of_get? hsource
    have htype := Source.type_mem_of_read (hbuiltIn source hmem) (hfit source hmem) he
    exact ⟨htype, mem_eventTypes hmem htype⟩
  refine ⟨hread, fun e store processors hp ns hns => Processor.about_runChain hp hns, ?_⟩
  intro hp v turns hturns turn hturn u
  have hpair := hturns.pair_mem hturn
  obtain ⟨n, hn, htransport⟩ := List.mem_flatMap.mp hpair
  obtain ⟨transport, htransport, heq⟩ := List.mem_map.mp htransport
  cases heq
  obtain ⟨key, source, submission, e, ns, hsource, he, hchain, hmem⟩ := exists_event_of_mem hn
  have hcontext : turn.notification.context = e.context :=
    Processor.about_runChain hp hchain _ hmem
  rw [hcontext]
  exact isSome_wish?_hydrate u.preferences e.context.type_ne_empty
    (hread key source hsource v.arrival submission e he).2 htransport

/-- A server that has passed its startup checks never leaves the types that it declares, whatever
requests come in. -/
theorem dispatch_stays_declared (s : Server)
    (hbuiltIn : ∀ source ∈ s.sources.values, source.isBuiltIn) (token : Token) (tl : Timeline)
    (hvalid : (validate token (s, tl)).1 = some (.ok ())) (visits : List Visit) :
    ((validate token (s, tl)).2.1.after visits).Declares := by
  have halike := (setUpAlike_validate token s tl).trans (setUpAlike_after visits _)
  apply declares_of_fit
  · rw [halike.sources]
    exact hbuiltIn
  · rw [halike.sources]
    exact fun source hsource => fit_of_validate hvalid hsource

/-- The server of the examples, with a forge that may tell of pull requests only. -/
def forgeServer : Server :=
  { sampleServer with
    sources := sampleServer.sources.set "github" (.webhook Source.sampleHook ["pull_request"])
    processors := [.messages, .forge, .enrich, .deduplicate, .dropUnaddressed] }

theorem dispatch_stays_declared_sample :
    (∀ source ∈ forgeServer.sources.values, source.isBuiltIn) ∧
      (validate .requests (forgeServer, .start none)).1 = some (.ok ()) ∧
      ((validate .requests (forgeServer, .start none)).2.1.after [samplePut]).Declares := by
  have hbuiltIn : ∀ source ∈ forgeServer.sources.values, source.isBuiltIn := by
    intro source hsource
    rcases List.mem_pair.mp hsource with rfl | rfl
    · rfl
    · rfl
  have hvalid : (validate .requests (forgeServer, .start none)).1 = some (.ok ()) := by
    cbv
  exact ⟨hbuiltIn, hvalid,
    dispatch_stays_declared forgeServer hbuiltIn .requests (.start none) hvalid [samplePut]⟩

end Server

end Herald
