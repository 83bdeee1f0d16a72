import Herald.Http.Status
import Herald.Json.Decoding
import Herald.Json.Printer
import Herald.Transport.Retry
import Herald.Validation

/-!
Delivery through the Slack Web API. A notification becomes one request, which posts the message to the
recipient's Slack id; options of the notification go along, but cannot redirect the message or change
its text. The answer decides whether a failure may go away.
-/

namespace Herald.Slack

def key : String := "slack"

def publicAddress : String := "https://slack.com/api"

def defaultUserId : Identifier.Key where
  space := some "slack.com"
  kind := Identifier.idKind
  space_plain := by decide
  kind_plain := by decide

structure Client where
  token : String
  address : String
  userId : Identifier.Key

def Client.make (token : String) : Client :=
  ⟨token, publicAddress, defaultUserId⟩

def Client.withAddress (c : Client) (address : String) : Client :=
  { c with address := String.ofList (address.toList.reverse.dropWhile (· == '/')).reverse }

structure Request where
  path : String
  authorization : String
  body : Json
deriving BEq

inductive Reply where
  | answer (status : Http.Status) (body : String)
  | close
  | hang
deriving DecidableEq, Repr

/-- The service at an address: its replies to come, and the requests it has seen. -/
structure Service where
  address : String
  /-- Replies in order; after them every request is answered as a success. -/
  replies : List Reply
  requests : List Request

def defaultReply : Reply :=
  .answer .ok "\x7b\"ok\":true\x7d"

def Service.serve (s : Service) (r : Request) : Reply × Service :=
  (s.replies.head?.getD defaultReply,
    { s with replies := s.replies.tail, requests := s.requests ++ [r] })

structure Verdict where
  ok : Bool
  error : Option String
deriving DecidableEq, Repr

structure Verdict.Draft where
  ok : Option Bool := none
  error : Option (Option String) := none

def Verdict.Draft.assign (d : Draft) (name : String) (t : Json.Tree) :
    Except Json.Fault Draft :=
  match name with
  | "ok" => do .ok { d with ok := ← Json.once name d.ok Json.Decoder.bool t }
  | "error" => do
    .ok { d with error := ← Json.once name d.error (Json.Decoder.optional Json.Decoder.string) t }
  | _ => do
    Json.Decoder.skip t
    .ok d

def Verdict.record : Json.Record Verdict.Draft where
  name := "SlackResponse"
  fields := [⟨"ok", false⟩, ⟨"error", true⟩]
  assign := Verdict.Draft.assign

def Verdict.decoder : Json.Decoder Verdict := fun t => do
  let d ← Verdict.record.read {} t
  .ok ⟨← Json.required "ok" d.ok, d.error.join⟩

def transientCodes : List String :=
  ["ratelimited", "rate_limited", "internal_error", "fatal_error", "service_unavailable",
    "request_timeout"]

def judge (method : String) (status : Http.Status) (body : String) : Except PushError Unit :=
  if status.code == 429 || status.isServerError then
    .error (.transient s!"slack {method} returned HTTP {status.text}")
  else if !status.isSuccess then
    .error (.lasting s!"slack {method} returned HTTP {status.text}")
  else
    match Json.decodeText Verdict.decoder body with
    | .error _ => .error (.lasting "slack request failed: error decoding response body")
    | .ok ⟨true, _⟩ => .ok ()
    | .ok ⟨false, some code⟩ =>
      if transientCodes.contains code then .error (.transient s!"slack {method} failed: {code}")
      else .error (.lasting s!"slack {method} failed: {code}")
    | .ok ⟨false, none⟩ => .error (.lasting s!"slack {method} failed: unknown error")

/-- The body that posts a notification to `channel`: the options, if they are an object, with channel
and text in place of any of their own. -/
def body (channel : String) (n : Notification) : Json :=
  let options := ((n.optionsFor key).bind Json.members?).getD []
  .ofMembers (options ++ [("channel", .string channel), ("text", .string (n.render key))])

def host? (address : String) : Option String :=
  let afterScheme (scheme : String) : Option String :=
    if scheme.toList.isPrefixOf address.toList then
      some (String.ofList ((address.toList.drop scheme.length).takeWhile (· != '/')))
    else none
  match afterScheme "http://" <|> afterScheme "https://" with
  | some "" => none
  | found => found

def fitsHeader (token : String) : Bool :=
  token.toList.all fun c => c == '\t' || (0x20 ≤ c.toNat && c.toNat != 0x7f)

/-- The header that carries the secret; blanks at its end are lost on the way. -/
def authorization (token : String) : String :=
  if token.isEmpty then "Bearer" else s!"Bearer {token}"

def patience : Nat := 30000

/-- Calls a method of the service. A call that is off already sends nothing. -/
def Client.call (c : Client) (method : String) (body : Json) (token : Token)
    (deadline : Option Nat) : Course Service (Except PushError Unit)
  | (service, tl) =>
    let lost := PushError.transient "slack request failed: error sending request"
    if tl.isCancelled token then (some (.error .cancelled), service, tl)
    else if (host? c.address).isNone || !fitsHeader c.token then
      (some (.error (.lasting "slack request failed: builder error")), service, tl)
    else if !service.address.toList.isPrefixOf c.address.toList then
      (some (.error lost), service, tl)
    else
      let path := String.ofList (c.address.toList.drop service.address.length) ++ "/" ++ method
      match service.serve ⟨path, authorization c.token, body⟩ with
      | (.answer status text, service) => (some (judge method status text), service, tl)
      | (.close, service) => (some (.error lost), service, tl)
      | (.hang, service) =>
        match tl.rest patience token deadline with
        | (.cancelled, tl) => (some (.error .cancelled), service, tl)
        | (.elapsed, tl) => (some (.error lost), service, tl)
        | (.cut, tl) => (none, service, tl)

/-- Pushes a notification. A recipient without Slack id cannot be reached. -/
def Client.push (c : Client) (n : Notification) (token : Token) (deadline : Option Nat) :
    Course Service (Except PushError Unit)
  | (service, tl) =>
    match n.recipient.require c.userId with
    | .error e => (some (.error (.lasting e.message)), service, tl)
    | .ok id =>
      match c.call "chat.postMessage" (body id.value n) token deadline (service, tl) with
      | (some (.ok ()), service, tl) =>
        (some (.ok ()), service, tl.report .debug "Posted Slack message"
          [("id", n.context.id), ("channel", id.value)])
      | other => other

def Client.check (c : Client) (token : Token) (deadline : Option Nat) :
    Course Service (Except ValidationError Unit)
  | (service, tl) =>
    match c.call "auth.test" (.object []) token deadline (service, tl) with
    | (some (.error e), service, tl) =>
      (some (.error ⟨"slack transport", e.text, some e.text⟩), service, tl)
    | (some (.ok ()), service, tl) => (some (.ok ()), service, tl)
    | (none, service, tl) => (none, service, tl)

end Herald.Slack
