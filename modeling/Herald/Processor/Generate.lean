import Herald.Processor.Basic
import Herald.Text.Cut
import Herald.Transport.Slack
import Herald.Webhook.Payload

/-!
Generation: the notifications that an event calls for. A message is for its addressee; what happened
on a forge is for the accounts that it concerns, but never for the one that did it.
-/

namespace Herald

def Message.recipient (m : Message) : Except Identifier.Invalid IdentifierSet :=
  (Identifier.email m.addressee).map IdentifierSet.singleton

def Message.text (m : Message) : String :=
  s!"{m.sender} sent you a message: '{m.comment}'"

namespace Processor

/-- The notification for a message. Without a usable address it is for nobody. -/
def ofMessage (context : Context) (m : Message) : Logged Notification :=
  let n := (Notification.about context).withMessage m.text
  match m.recipient with
  | .ok recipient => .pure (n.withRecipient recipient)
  | .error e =>
    (Logged.report .warn "Message has no usable recipient"
      [("event_id", context.id), ("error", e.message)]).bind fun _ => .pure n

end Processor

namespace Forge

def githubSpace : String := "github.com"

def gitlabSpace : String := "gitlab.com"

def account (space kind value : String) : Except ProcessError Identifier :=
  (Identifier.make (some space) kind value).mapError fun e =>
    ⟨Processor.forge.name, "payload names an invalid account", some (.invalidIdentifier e)⟩

def person (space login : String) : Except ProcessError IdentifierSet :=
  (account space Identifier.usernameKind login).map IdentifierSet.singleton

def decode {α : Type} (d : Delivery) (read : Json → Option α) : Except ProcessError α :=
  match read d.body with
  | some payload => .ok payload
  | none =>
    .error ⟨Processor.forge.name, s!"malformed {d.hook} {d.event} payload", some .undecodable⟩

def reviewNotifications (context : Context) (p : Payload.PullRequest) :
    Except ProcessError (List Notification) :=
  match p.reviewer with
  | some reviewer =>
    if p.action = "review_requested" then do
      let place := s!"{p.repository}#{p.number}"
      let recipient ← person githubSpace reviewer
      .ok [(((Notification.about context).withRecipient recipient).withMessage
        s!"{p.sender} requested your review on {place}: {p.title}").withMessageFor Slack.key
        s!"{p.sender} requested your review on <{p.url}|{place}>: {p.title}"]
    else .ok []
  | none => .ok []

def commentNotifications (context : Context) (p : Payload.IssueComment) :
    Except ProcessError (List Notification) :=
  if p.action = "created" ∧ p.commenter ≠ p.author then do
    let place := s!"{p.repository}#{p.number}"
    let recipient ← person githubSpace p.author
    .ok [(((Notification.about context).withRecipient recipient).withMessage
      s!"{p.commenter} commented on {place}: {p.title}").withMessageFor Slack.key
      s!"{p.commenter} <{p.url}|commented> on {place}: {p.title}"]
  else .ok []

def pusher (p : Payload.Push) : Except ProcessError IdentifierSet := do
  let recipient ← person gitlabSpace p.username
  match p.email with
  | some email =>
    if email = "" then .ok recipient
    else .ok (recipient.insert (← account gitlabSpace Identifier.emailKind email))
  | none => .ok recipient

def branch (ref : String) : String :=
  String.ofList (Text.dropRepeated "refs/heads/".toList ref.toList)

def pushNotifications (context : Context) (p : Payload.Push) :
    Except ProcessError (List Notification) := do
  let recipient ← pusher p
  .ok [((Notification.about context).withRecipient recipient).withMessage
    s!"You pushed {p.commits} commit(s) to {p.project} ({branch p.ref})"]

def pastTense : String → String
  | "open" => "opened"
  | "close" => "closed"
  | "reopen" => "reopened"
  | "update" => "updated"
  | "merge" => "merged"
  | other => other

def mergeText (p : Payload.MergeRequest) : String :=
  let action := pastTense (p.action.getD "updated")
  s!"{p.actor} {action} merge request !{p.number} in {p.project}: {p.title}"

def mergeNotifications (context : Context) (p : Payload.MergeRequest) :
    Except ProcessError (List Notification) :=
  (p.assignees.filter fun assignee => assignee != p.actor).mapM fun assignee => do
    let recipient ← person gitlabSpace assignee
    .ok (((Notification.about context).withRecipient recipient).withMessage (mergeText p))

def notifications (context : Context) (d : Delivery) : Except ProcessError (List Notification) :=
  match d.hook, d.event with
  | "github", "pull_request" => do
    reviewNotifications context (← decode d Payload.PullRequest.ofJson?)
  | "github", "issue_comment" => do
    commentNotifications context (← decode d Payload.IssueComment.ofJson?)
  | "gitlab", "push" => do
    pushNotifications context (← decode d Payload.Push.ofJson?)
  | "gitlab", "merge_request" => do
    mergeNotifications context (← decode d Payload.MergeRequest.ofJson?)
  | _, _ => .ok []

end Forge

namespace Processor

def generateMessage (e : Event) (before : List Notification) : Processed :=
  match e.content with
  | .message m => (ofMessage e.context m).bind fun n => .pure (.ok (before ++ [n]))
  | .delivery _ => .pure (.ok before)

def generateForge (e : Event) (before : List Notification) : Processed :=
  match e.content with
  | .message _ => .pure (.ok before)
  | .delivery d =>
    match Forge.notifications e.context d with
    | .error failure => .pure (.error failure)
    | .ok made =>
      (Logged.report .debug "Generated forge notifications"
        [("event_id", e.context.id), ("event_type", e.context.type),
          ("generated", toString made.length)]).bind fun _ => .pure (.ok (before ++ made))

end Processor

end Herald
