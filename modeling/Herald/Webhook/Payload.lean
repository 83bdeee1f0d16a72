import Herald.Json.Fields

/-!
What the bodies of deliveries hold, event by event. Fields that no notification needs are passed over.
-/

namespace Herald.Payload

structure PullRequest where
  action : String
  number : Nat
  title : String
  url : String
  repository : String
  sender : String
  reviewer : Option String
deriving DecidableEq, Repr

structure IssueComment where
  action : String
  number : Nat
  title : String
  author : String
  url : String
  commenter : String
  repository : String
deriving DecidableEq, Repr

structure Push where
  ref : String
  username : String
  email : Option String
  commits : Nat
  project : String
deriving DecidableEq, Repr

structure MergeRequest where
  actor : String
  project : String
  number : Nat
  title : String
  action : Option String
  assignees : List String
deriving DecidableEq, Repr

/-- A record of which only one text matters. -/
def named? (name : String) (j : Json) : Option String := do
  let fields ← j.record? [⟨name, false⟩]
  Json.field? fields name Json.text?

def pullRequestDetails? (j : Json) : Option (Nat × String × String) := do
  let fields ← j.record? [⟨"number", false⟩, ⟨"title", false⟩, ⟨"html_url", false⟩]
  some (← Json.field? fields "number" Json.count?, ← Json.field? fields "title" Json.text?,
    ← Json.field? fields "html_url" Json.text?)

def PullRequest.ofJson? (j : Json) : Option PullRequest := do
  let fields ← j.record? [⟨"action", false⟩, ⟨"pull_request", false⟩, ⟨"repository", false⟩,
    ⟨"sender", false⟩, ⟨"requested_reviewer", false⟩]
  let action ← Json.field? fields "action" Json.text?
  let (number, title, url) ← Json.field? fields "pull_request" pullRequestDetails?
  let repository ← Json.field? fields "repository" (named? "full_name")
  let sender ← Json.field? fields "sender" (named? "login")
  let reviewer ← Json.fieldOr? fields "requested_reviewer" (Json.orNull? (named? "login")) none
  some ⟨action, number, title, url, repository, sender, reviewer⟩

def issueDetails? (j : Json) : Option (Nat × String × String) := do
  let fields ← j.record? [⟨"number", false⟩, ⟨"title", false⟩, ⟨"user", false⟩]
  some (← Json.field? fields "number" Json.count?, ← Json.field? fields "title" Json.text?,
    ← Json.field? fields "user" (named? "login"))

def commentDetails? (j : Json) : Option (String × String) := do
  let fields ← j.record? [⟨"html_url", false⟩, ⟨"user", false⟩]
  some (← Json.field? fields "html_url" Json.text?, ← Json.field? fields "user" (named? "login"))

def IssueComment.ofJson? (j : Json) : Option IssueComment := do
  let fields ← j.record? [⟨"action", false⟩, ⟨"issue", false⟩, ⟨"comment", false⟩,
    ⟨"repository", false⟩]
  let action ← Json.field? fields "action" Json.text?
  let (number, title, author) ← Json.field? fields "issue" issueDetails?
  let (url, commenter) ← Json.field? fields "comment" commentDetails?
  let repository ← Json.field? fields "repository" (named? "full_name")
  some ⟨action, number, title, author, url, commenter, repository⟩

def Push.ofJson? (j : Json) : Option Push := do
  let fields ← j.record? [⟨"ref", false⟩, ⟨"user_username", false⟩, ⟨"user_email", true⟩,
    ⟨"total_commits_count", true⟩, ⟨"project", false⟩]
  let ref ← Json.field? fields "ref" Json.text?
  let username ← Json.field? fields "user_username" Json.text?
  let email ← Json.fieldOr? fields "user_email" (Json.orNull? Json.text?) none
  let commits ← Json.fieldOr? fields "total_commits_count" Json.count? 0
  let project ← Json.field? fields "project" (named? "path_with_namespace")
  some ⟨ref, username, email, commits, project⟩

def mergeRequestDetails? (j : Json) : Option (Nat × String × Option String) := do
  let fields ← j.record? [⟨"iid", false⟩, ⟨"title", false⟩, ⟨"action", true⟩]
  some (← Json.field? fields "iid" Json.count?, ← Json.field? fields "title" Json.text?,
    ← Json.fieldOr? fields "action" (Json.orNull? Json.text?) none)

def MergeRequest.ofJson? (j : Json) : Option MergeRequest := do
  let fields ← j.record? [⟨"user", false⟩, ⟨"project", false⟩, ⟨"object_attributes", false⟩,
    ⟨"assignees", true⟩]
  let actor ← Json.field? fields "user" (named? "username")
  let project ← Json.field? fields "project" (named? "path_with_namespace")
  let (number, title, action) ← Json.field? fields "object_attributes" mergeRequestDetails?
  let assignees ← Json.fieldOr? fields "assignees" (Json.listOf? (named? "username")) []
  some ⟨actor, project, number, title, action, assignees⟩

end Herald.Payload
