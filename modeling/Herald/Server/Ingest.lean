import Herald.Http.Message
import Herald.Server.Basic

/-!
Taking in an event. The submission is read, the processors turn the event into notifications, and
each of these is dispatched. The sender learns whether the event was understood, not whether
everybody could be notified.
-/

namespace Herald.Server

def notInterested : Http.Response :=
  .plain .ok "thanks but we're not interested in that event"

def nothingToSend : Http.Response :=
  .plain .ok "no notifications to send"

def dispatched : Http.Response :=
  .plain .accepted "Notifications dispatched\n"

def parseFailure (e : ParseError) : Http.Response :=
  .plain e.status (e.reason?.getD e.message)

/-- Dispatches notifications one after another; the number of those that some transport did not
deliver. -/
def dispatchAll (context : Context) (token : Token) :
    List Notification → Notifier → Timeline → Option Nat × Notifier × Timeline
  | [], notifier, tl => (some 0, notifier, tl)
  | n :: rest, notifier, tl =>
    match Notifier.push n token (notifier, tl) with
    | (none, notifier, tl) => (none, notifier, tl)
    | (some (.ok ()), notifier, tl) => dispatchAll context token rest notifier tl
    | (some (.error e), notifier, tl) =>
      let tl := tl.report .warn "Notification delivery failed"
        [("id", context.id), ("to", n.recipient.text), ("error", e.message)]
      let (failed, notifier, tl) := dispatchAll context token rest notifier tl
      (failed.map (· + 1), notifier, tl)

def reportDispatch (context : Context) (total failed : Nat) (tl : Timeline) : Timeline :=
  if 0 < failed then
    tl.report .warn "Some notifications failed"
      [("id", context.id), ("failed", toString failed), ("total", toString total)]
  else
    tl.report .info "Notifications dispatched"
      [("id", context.id), ("event_type", context.type), ("total", toString total)]

def deliver (context : Context) (ns : List Notification) (token : Token) :
    Course Server Http.Response
  | (s, tl) =>
    let (failed, notifier, tl) := dispatchAll context token ns s.notifier tl
    let s := { s with transports := notifier.transports }
    match failed with
    | some failed => (some dispatched, s, reportDispatch context ns.length failed tl)
    | none => (none, s, tl)

def processEvent (e : Event) (token : Token) : Course Server Http.Response
  | (s, tl) =>
    let tl := tl.report .debug "Parsed event"
      [("id", e.context.id), ("event_type", e.context.type)]
    let processed := Processor.runChain s.store s.processors e
    let tl := tl.hear processed
    match processed.value with
    | .error failure =>
      (some (.plain .internalError failure.message), s,
        tl.report .error "Processor chain failed"
          [("id", e.context.id), ("error", failure.message)])
    | .ok [] => (some nothingToSend, s, tl)
    | .ok ns => deliver e.context ns token (s, tl)

def ingest (key : String) (arrival : Arrival) (submission : Submission) (token : Token) :
    Course Server Http.Response
  | (s, tl) =>
    match s.sources.get? key with
    | none => (some (.plain .notFound s!"no parser registered for {Text.quote key}"), s, tl)
    | some source =>
      let read := source.read arrival submission
      let tl := tl.hear read
      match read.value with
      | .error e =>
        (some (parseFailure e), s, tl.report .warn "Failed to parse event"
          [("error", e.message), ("status", toString e.status.code)])
      | .ok none => (some notInterested, s, tl.report .debug "Parser ignored request" [])
      | .ok (some e) => processEvent e token (s, tl)

end Herald.Server
