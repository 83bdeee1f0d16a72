import Herald.Event.Basic
import Herald.Event.Submission
import Herald.Json.Decoding
import Herald.Webhook.Signature

/-!
Webhooks of forges. A delivery counts only if it shows that its sender knows the secret, and nothing
else about it is looked at before. Events that are not on the allowlist are passed over.
-/

namespace Herald

/-- A forge that delivers events, and what its deliveries are checked against. -/
inductive Hook where
  /-- Deliveries are signed under a secret. -/
  | github (secret : List UInt8)
  /-- Deliveries carry a token. -/
  | gitlab (token : String)
deriving DecidableEq, Repr

structure Hook.Offer where
  event : String
  title : String
  description : String
deriving DecidableEq, Repr

/-- Why a delivery gives no event. -/
inductive Hook.Refusal where
  | notAllowed (event : String)
  | missingHeader (name : String)
  | badSignature
  | badToken
  | badBody (fault : Json.Fault)
  | missingField (name : String)
deriving BEq

def Hook.Refusal.message : Hook.Refusal → String
  | .notAllowed event => s!"event not on allowlist: {event}"
  | .missingHeader name => s!"missing required header: {name}"
  | .badSignature => "invalid signature"
  | .badToken => "invalid token"
  | .badBody fault => s!"invalid JSON body: {fault.message}"
  | .missingField name => s!"missing field in payload: {name}"

namespace Hook

def name : Hook → String
  | .github _ => "github"
  | .gitlab _ => "gitlab"

def offers : Hook → List Offer
  | .github _ => [
      ⟨"pull_request", "Pull request review requested",
        "Someone asked you to review a pull request"⟩,
      ⟨"issue_comment", "Comment on your issue",
        "Someone commented on an issue or pull request you opened"⟩]
  | .gitlab _ => [
      ⟨"push", "Push", "Your commits were pushed to a project"⟩,
      ⟨"merge_request", "Merge request assigned", "A merge request assigned to you changed"⟩]

def delivers (h : Hook) (event : String) : Bool :=
  h.offers.any fun o => o.event == event

def eventType (h : Hook) (event : String) : String :=
  s!"com.{h.name}.{event}"

def source (h : Hook) : String :=
  s!"/webhooks/{h.name}"

def requireHeader (s : Submission) (name : String) : Except Refusal String :=
  match s.header? name with
  | some value => .ok value
  | none => .error (.missingHeader name)

def requireAllowed (allowlist : List String) (event : String) : Except Refusal Unit :=
  if allowlist.contains event then .ok () else .error (.notAllowed event)

def readBody (s : Submission) : Except Refusal Json :=
  (Json.decodeBytes Json.anyValue s.body).mapError .badBody

/-- Reads a signed delivery. The event is named by a header. -/
def readSigned (secret : List UInt8) (s : Submission) (allowlist : List String) :
    Except Refusal Delivery := do
  let event ← requireHeader s "x-github-event"
  let signature ← requireHeader s "x-hub-signature-256"
  if Webhook.Signature.verify s.body signature secret then
    requireAllowed allowlist event
    let body ← readBody s
    let subject := ((body.member "repository").member "full_name").text?
    .ok ⟨"github", event, s.header? "x-github-delivery", subject, body⟩
  else .error .badSignature

/-- Reads a delivery with a token. The event is named by the body. -/
def readTokened (token : String) (s : Submission) (allowlist : List String) :
    Except Refusal Delivery := do
  let provided ← requireHeader s "x-gitlab-token"
  if Webhook.Signature.verifyToken provided token then
    let body ← readBody s
    match (body.member "object_kind").text? with
    | some event =>
      requireAllowed allowlist event
      let subject := ((body.member "project").member "path_with_namespace").text?
      .ok ⟨"gitlab", event, s.header? "x-gitlab-event-uuid", subject, body⟩
    | none => .error (.missingField "object_kind")
  else .error .badToken

def read (h : Hook) (s : Submission) (allowlist : List String) : Except Refusal Delivery :=
  match h with
  | .github secret => readSigned secret s allowlist
  | .gitlab token => readTokened token s allowlist

/-- What is wrong with the secret or token: nobody should be able to guess it. -/
def complaint? : Hook → Option String
  | .github secret => if secret.isEmpty then some "webhook secret is empty" else none
  | .gitlab token => if token.isEmpty then some "webhook token is empty" else none

end Hook

end Herald
