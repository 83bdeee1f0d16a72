import Herald.Server.Basic

/-!
Starting a server. Before it listens every component with a startup check is checked, in the order
sources, processors, transports, store and default preference, up to the first failure.
-/

namespace Herald.Server

inductive Ended where
  | invalid (e : ValidationError)
  | bind (address : Http.Address)
deriving DecidableEq, Repr

def reportCheck (component : String) (tl : Timeline) : Timeline :=
  tl.report .debug "Validating" [("component", component)]

def runChecks (token : Token) : List (String × Option Check) → Timeline →
    Option (Except ValidationError Unit) × Timeline
  | [], tl => (some (.ok ()), tl)
  | (_, none) :: rest, tl => runChecks token rest tl
  | (component, some check) :: rest, tl =>
    match check token (reportCheck component tl) with
    | (some (.ok ()), tl) => runChecks token rest tl
    | failed => failed

def checkTransports (token : Token) : List Transport → Timeline →
    Option (Except ValidationError Unit) × List Transport × Timeline
  | [], tl => (some (.ok ()), [], tl)
  | t :: rest, tl =>
    if t.hasCheck then
      match Transport.check token (t, reportCheck s!"transport {t.key}" tl) with
      | (some (.ok ()), t, tl) =>
        let (result, rest, tl) := checkTransports token rest tl
        (result, t :: rest, tl)
      | (result, t, tl) => (result, t :: rest, tl)
    else
      let (result, rest, tl) := checkTransports token rest tl
      (result, t :: rest, tl)

def earlyChecks (s : Server) : List (String × Option Check) :=
  (s.sources.toList.map fun (key, source) => (s!"parser {key}", source.startupCheck)) ++
    s.processors.map fun p => (s!"processor {p.name}", p.startupCheck)

def lateChecks (s : Server) : List (String × Option Check) :=
  [("user store", s.store.startupCheck), ("default preference", s.fallback.startupCheck)]

/-- Makes all startup checks. There is no result if one of them waits for ever. -/
def validate (token : Token) : Course Server (Except ValidationError Unit)
  | (s, tl) =>
    match runChecks token s.earlyChecks tl with
    | (some (.ok ()), tl) =>
      let (result, transports, tl) := checkTransports token s.transports tl
      let s := { s with transports }
      match result with
      | some (.ok ()) =>
        let (result, tl) := runChecks token s.lateChecks tl
        (result, s, tl)
      | failed => (failed, s, tl)
    | (failed, tl) => (failed, s, tl)

def serve (s : Server) (tl : Timeline) : Timeline :=
  (tl.report .info "Listening" [("addr", s.address.text)]).report .info
    "Shutting down, draining in-flight requests" []

def run (free : Bool) (token : Token) : Course Server (Except Ended Unit)
  | (s, tl) =>
    match validate token (s, tl) with
    | (some (.ok ()), s, tl) =>
      if free then (some (.ok ()), s, s.serve tl)
      else (some (.error (.bind s.address)), s, tl)
    | (some (.error e), s, tl) => (some (.error (.invalid e)), s, tl)
    | (none, s, tl) => (none, s, tl)

end Herald.Server
