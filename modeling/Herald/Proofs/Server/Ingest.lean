import Herald.Proofs.Dispatch
import Herald.Server.Ingest

/-!
Taking in an event. The notifications that a submission calls for are dispatched one after another, and
of the server nothing changes but what its transports hold.
-/

namespace Herald.Server

open Timeline

variable {s s' s'' : Server}

/-! ### What stays -/

/-- Only what the transports hold has changed. -/
structure Worked (s s' : Server) : Prop where
  eq : s' = { s with transports := s'.transports }
  keys : s'.transportKeys = s.transportKeys

theorem Worked.refl (s : Server) : Worked s s :=
  ⟨rfl, rfl⟩

/-! ### Notifications -/

/-- The notifications that an event calls for. -/
def eventNotifications (s : Server) (e : Event) : List Notification :=
  match (Processor.runChain s.store s.processors e).value with
  | .ok ns => ns
  | .error _ => []

/-- The notifications that a submission to a source calls for. -/
def submissionNotifications (s : Server) (key : String) (arrival : Arrival)
    (submission : Submission) : List Notification :=
  match s.sources.get? key with
  | none => []
  | some source =>
    match (source.read arrival submission).value with
    | .ok (some e) => s.eventNotifications e
    | _ => []

/-- Each notification with each of the keys of transports. -/
def pairs (keys : List String) (ns : List Notification) : List (Notification × String) :=
  ns.flatMap fun n => keys.map (Prod.mk n)

/-! ### Dispatching -/

theorem dispatches_dispatchAll (context : Context) (token : Token) (ns : List Notification)
    (notifier : Notifier) (tl : Timeline) :
    (dispatchAll context token ns notifier tl).2.1.transports.map Transport.key =
        notifier.transports.map Transport.key ∧
      ∃ turns, Dispatches notifier.preferences token
        (pairs (notifier.transports.map Transport.key) ns)
        (dispatchAll context token ns notifier tl).1.isSome turns tl
        (dispatchAll context token ns notifier tl).2.2 := by
  induction ns generalizing notifier tl with
  | nil => exact ⟨rfl, [], .of_passes (.refl token tl)⟩
  | cons n rest ih =>
    obtain ⟨hpreferences, hkeys, turns, hfirst⟩ := Notifier.dispatches_push n token notifier tl
    unfold dispatchAll
    split
    · rename_i heq
      rw [heq] at hkeys hfirst
      exact ⟨hkeys, turns, hfirst.unended _⟩
    · rename_i notifier' tl' heq
      rw [heq] at hpreferences hkeys hfirst
      obtain ⟨hkeys', later, hrest⟩ := ih notifier' tl'
      rw [hpreferences, hkeys] at hrest
      exact ⟨hkeys'.trans hkeys, turns ++ later, hfirst.append hrest⟩
    · rename_i e notifier' tl' heq
      rw [heq] at hpreferences hkeys hfirst
      obtain ⟨hkeys', later, hrest⟩ := ih notifier' (tl'.report .warn "Notification delivery failed"
        [("id", context.id), ("to", n.recipient.text), ("error", e.message)])
      rw [hpreferences, hkeys] at hrest
      refine ⟨hkeys'.trans hkeys, turns ++ later, ?_⟩
      dsimp only
      rw [Option.isSome_map]
      exact (hfirst.after (passes_report token _ _ _ _)).append hrest

theorem passes_reportDispatch (token : Token) (context : Context) (total failed : Nat)
    (tl : Timeline) : Passes token tl (reportDispatch context total failed tl) := by
  unfold reportDispatch
  split
  · exact passes_report token tl _ _ _
  · exact passes_report token tl _ _ _

theorem dispatches_deliver (context : Context) (ns : List Notification) (token : Token) (s : Server)
    (tl : Timeline) :
    Worked s (deliver context ns token (s, tl)).2.1 ∧
      ∃ turns, Dispatches s.preferences token (pairs s.transportKeys ns)
        (deliver context ns token (s, tl)).1.isSome turns tl
        (deliver context ns token (s, tl)).2.2 := by
  obtain ⟨hkeys, turns, hall⟩ := dispatches_dispatchAll context token ns s.notifier tl
  unfold deliver
  dsimp only
  split
  · rename_i failed heq
    rw [heq] at hall
    exact ⟨⟨rfl, hkeys⟩, turns, hall.after (passes_reportDispatch token context ns.length failed _)⟩
  · rename_i heq
    rw [heq] at hall
    exact ⟨⟨rfl, hkeys⟩, turns, hall⟩

theorem dispatches_processEvent (e : Event) (token : Token) (s : Server) (tl : Timeline) :
    Worked s (processEvent e token (s, tl)).2.1 ∧
      ∃ turns, Dispatches s.preferences token (pairs s.transportKeys (s.eventNotifications e))
        (processEvent e token (s, tl)).1.isSome turns tl
        (processEvent e token (s, tl)).2.2 := by
  have hreport : Passes token tl (tl.report .debug "Parsed event"
      [("id", e.context.id), ("event_type", e.context.type)]) := passes_report token tl _ _ _
  have hhear := hreport.trans
    (passes_hear token _ (Processor.runChain s.store s.processors e))
  unfold processEvent eventNotifications
  dsimp only
  cases (Processor.runChain s.store s.processors e).value with
  | error failure => exact ⟨.refl s, [], .of_passes (hhear.trans (passes_report token _ _ _ _))⟩
  | ok ns =>
    cases ns with
    | nil => exact ⟨.refl s, [], .of_passes hhear⟩
    | cons n rest =>
      obtain ⟨hworked, turns, hdeliver⟩ := dispatches_deliver e.context (n :: rest) token s _
      exact ⟨hworked, turns, hdeliver.before hhear⟩

theorem dispatches_ingest (key : String) (arrival : Arrival) (submission : Submission)
    (token : Token) (s : Server) (tl : Timeline) :
    Worked s (ingest key arrival submission token (s, tl)).2.1 ∧
      ∃ turns, Dispatches s.preferences token
        (pairs s.transportKeys (s.submissionNotifications key arrival submission))
        (ingest key arrival submission token (s, tl)).1.isSome turns tl
        (ingest key arrival submission token (s, tl)).2.2 := by
  unfold ingest submissionNotifications
  dsimp only
  cases s.sources.get? key with
  | none => exact ⟨.refl s, [], .of_passes (.refl token tl)⟩
  | some source =>
    have hhear := passes_hear token tl (source.read arrival submission)
    dsimp only
    cases (source.read arrival submission).value with
    | error e => exact ⟨.refl s, [], .of_passes (hhear.trans (passes_report token _ _ _ _))⟩
    | ok event =>
      cases event with
      | none => exact ⟨.refl s, [], .of_passes (hhear.trans (passes_report token _ _ _ _))⟩
      | some e =>
        obtain ⟨hworked, turns, hprocess⟩ := dispatches_processEvent e token s _
        exact ⟨hworked, turns, hprocess.before hhear⟩

end Herald.Server
