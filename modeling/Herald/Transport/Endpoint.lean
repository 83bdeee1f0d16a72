import Herald.Transport.Slack

/-!
Endpoints: where a notification finally goes. Besides the writer, the discarding endpoint and Slack
there is a scripted one, which does with each push what the next entry of its script says.
-/

namespace Herald

inductive Script.Failure where
  | transient
  | permanent
  | madePermanent
deriving DecidableEq, Repr

structure Script.Entry where
  /-- Observes the token of the push. -/
  watch : Bool
  /-- Sleeps for so many milliseconds. -/
  delay : Nat
  /-- Cancels the token of the whole delivery. -/
  cancel : Bool
  /-- Waits until the token of the push is cancelled. -/
  hang : Bool
  /-- Fails in the end, with a message. -/
  failure : Option (Script.Failure × String)
deriving DecidableEq, Repr

def Script.Entry.quick : Script.Entry :=
  ⟨false, 0, false, false, none⟩

/-- The result of a push that was neither cut off nor called off. -/
def Script.Entry.result (e : Script.Entry) : Except PushError Unit :=
  match e.failure with
  | none => .ok ()
  | some (.transient, message) => .error (.transient message)
  | some (.permanent, message) => .error (.lasting message)
  | some (.madePermanent, message) => .error (PushError.transient message).toPermanent

/-- Where a notification finally goes. -/
inductive Endpoint where
  /-- A scripted endpoint, and its startup check, if it has one. -/
  | scripted (key : String) (script : List Script.Entry) (check : Option Check)
  /-- Prints lines; a broken one fails with a reason each time. -/
  | writer (fault : Option String)
  | blackhole
  | slack (client : Slack.Client) (service : Slack.Service)

def Endpoint.writerKey : String := "writer"

def Endpoint.blackholeKey : String := "blackhole"

def Notification.line (n : Notification) : String :=
  s!"notification: id={n.context.id} type={n.context.type}, to={n.recipient.text}, " ++
    s!"message={n.render Endpoint.writerKey}\n"

namespace Endpoint

def key : Endpoint → String
  | .scripted key _ _ => key
  | .writer _ => writerKey
  | .blackhole => blackholeKey
  | .slack _ _ => Slack.key

def play (e : Script.Entry) (token : Token) (deadline : Option Nat) (tl : Timeline) :
    Option (Except PushError Unit) × Timeline :=
  let tl := if e.watch then tl.observe token else tl
  match tl.sleep e.delay deadline with
  | (false, tl) => (none, tl)
  | (true, tl) =>
    let tl := if e.cancel then tl.cancel tl.root else tl
    if e.hang then
      match tl.awaitCancellation token deadline with
      | (true, tl) => (some (.error .cancelled), tl)
      | (false, tl) => (none, tl)
    else (some e.result, tl)

def push (n : Notification) (token : Token) (deadline : Option Nat) :
    Course Endpoint (Except PushError Unit)
  | (.scripted key script check, tl) =>
    let tl := tl.see (.pushed key tl.now n)
    let (result, tl) := play (script.head?.getD .quick) token deadline tl
    (result, .scripted key script.tail check, tl)
  | (.writer none, tl) => (some (.ok ()), .writer none, tl.see (.wrote writerKey n.line))
  | (.writer (some fault), tl) =>
    (some (.ok ()), .writer (some fault),
      tl.report .warn "Failed to write notification" [("error", fault)])
  | (.blackhole, tl) =>
    if n.recipient.holdsKind Identifier.blackholeKind then
      (some (.ok ()), .blackhole, tl.report .debug "Discarded notification" [("id", n.context.id)])
    else
      let message := s!"recipient {n.recipient.text} has no {Identifier.blackholeKind} identifier"
      (some (.error (.lasting message)), .blackhole, tl)
  | (.slack client service, tl) =>
    let (result, service, tl) := client.push n token deadline (service, tl)
    (result, .slack client service, tl)

def hasCheck : Endpoint → Bool
  | .scripted _ _ check => check.isSome
  | .slack _ _ => true
  | _ => false

/-- Makes the startup check; an endpoint without one passes. -/
def check (token : Token) : Course Endpoint (Except ValidationError Unit)
  | (.scripted key script (some check), tl) =>
    let (result, tl) := check token tl
    (result, .scripted key script (some check), tl)
  | (.slack client service, tl) =>
    let (result, service, tl) := client.check token none (service, tl)
    (result, .slack client service, tl)
  | (endpoint, tl) => (some (.ok ()), endpoint, tl)

end Endpoint

end Herald
