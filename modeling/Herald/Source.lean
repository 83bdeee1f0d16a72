import Herald.Log
import Herald.Text.Quoted
import Herald.Validation
import Herald.Webhook.Hook

/-!
Sources of events. A source reads submissions as events of the types that it declares; every event
has a new id.
-/

namespace Herald

structure Arrival where
  id : String
  time : Timestamp
deriving DecidableEq, Repr

/-- A source of events. -/
inductive Source where
  | messages
  | webhook (hook : Hook) (allowlist : List String)
  /-- A source from elsewhere: how it reads, the types that it declares, and its startup check, if it
  has one. -/
  | custom (work : Arrival → Submission → Logged (Except ParseError (Option Event)))
      (types : List EventType) (check : Option Check)

structure Message.Draft where
  sender : Option String := none
  addressee : Option String := none
  comment : Option String := none

namespace Message

def Draft.assign (d : Draft) (name : String) (t : Json.Tree) : Except Json.Fault Draft :=
  match name with
  | "from" => do .ok { d with sender := ← Json.once name d.sender Json.Decoder.string t }
  | "to" => do .ok { d with addressee := ← Json.once name d.addressee Json.Decoder.string t }
  | "comment" => do .ok { d with comment := ← Json.once name d.comment Json.Decoder.string t }
  | _ => do
    Json.Decoder.skip t
    .ok d

def record : Json.Record Draft where
  name := "MessageSent"
  fields := [⟨"from", false⟩, ⟨"to", false⟩, ⟨"comment", false⟩]
  assign := Draft.assign

def decoder : Json.Decoder Message := fun t => do
  let d ← record.read {} t
  let sender ← Json.required "from" d.sender
  let addressee ← Json.required "to" d.addressee
  let comment ← Json.required "comment" d.comment
  .ok ⟨sender, addressee, comment⟩

def eventType : String := "com.example.message_sent"

def source : String := "/example"

end Message

namespace Source

def ofHook (hook : Hook) : Source :=
  .webhook hook (hook.offers.map Hook.Offer.event)

def readMessage (arrival : Arrival) (s : Submission) : Except ParseError Event := do
  let m ← (Json.decodeBytes Message.decoder s.body).mapError fun fault =>
    .badRequest s!"invalid message: {fault.message}"
  let context ← (Context.make arrival.id Message.source Message.eventType).mapError fun e =>
    .internal e.message
  .ok ⟨context, .message m⟩

def ofDelivery (hook : Hook) (arrival : Arrival) (d : Delivery) : Except ParseError Event := do
  let labels : Dictionary String := match d.id with
    | some id => Dictionary.set ∅ "delivery" id
    | none => ∅
  let context ← (Context.ofParts arrival.id hook.source (hook.eventType d.event) d.subject
    (some arrival.time) labels).mapError fun e => .malformed e.message
  .ok ⟨context, .delivery d⟩

/-- How a delivery that gives no event is answered. One that is not allowed is no error. -/
def answerRefusal (hook : Hook) : Hook.Refusal → Logged (Except ParseError (Option Event))
  | .notAllowed event =>
    (Logged.report .debug "Ignoring event" [("hook", hook.name), ("event", event)]).bind fun _ =>
      .pure (.ok none)
  | .badSignature => .pure (.error (.unauthorized Hook.Refusal.badSignature.message))
  | .badToken => .pure (.error (.unauthorized Hook.Refusal.badToken.message))
  | refusal => .pure (.error (.badRequest refusal.message))

/-- Reads a submission; there is no event if the source passes it over. -/
def read (source : Source) (arrival : Arrival) (s : Submission) :
    Logged (Except ParseError (Option Event)) :=
  match source with
  | .messages => .pure ((readMessage arrival s).map some)
  | .webhook hook allowlist =>
    match hook.read s allowlist with
    | .ok d => .pure ((ofDelivery hook arrival d).map some)
    | .error refusal => answerRefusal hook refusal
  | .custom work _ _ => work arrival s

def eventTypes : Source → List EventType
  | .messages => [⟨Message.eventType, "Message sent", "Someone sent you a message"⟩]
  | .webhook hook allowlist =>
    (hook.offers.filter fun o => allowlist.contains o.event).map fun o =>
      ⟨hook.eventType o.event, o.title, o.description⟩
  | .custom _ types _ => types

/-- The startup check of a webhook: there is a secret, and the allowlist names only events that the
forge delivers. -/
def checkHook (hook : Hook) (allowlist : List String) : Except ValidationError Unit :=
  let component := s!"{hook.name} webhook"
  match hook.complaint? with
  | some reason => .error ⟨component, reason, none⟩
  | none =>
    match allowlist.find? fun event => !hook.delivers event with
    | some event =>
      .error ⟨component, s!"allowlist names unknown event {Text.quote event}", none⟩
    | none => .ok ()

def startupCheck : Source → Option Check
  | .messages => none
  | .webhook hook allowlist => some (.of (checkHook hook allowlist))
  | .custom _ _ check => check

end Source

end Herald
