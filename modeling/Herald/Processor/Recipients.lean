import Herald.Identifier.Grouping
import Herald.Processor.Basic
import Herald.User.Store

/-!
Recipients: notifications are completed with what a store knows of the people they are for, those for
the same person become one, and those for nobody are dropped or addressed elsewhere.
-/

namespace Herald.Processor

/-- Adds all identifiers of the user that the recipient resolves to. The recipient stays as it is
where nobody is resolved. -/
def enrichOne (store : UserStore) (context : Context) (n : Notification) : Logged Notification :=
  if n.recipient.isEmpty then .pure n
  else
    (store.find n.recipient).bind fun
      | .ok user => .pure (n.withRecipient (n.recipient.merge user.identifiers))
      | .error e =>
        if e.isNotFound then
          (Logged.report .debug "No user for recipient"
            [("event_id", context.id), ("recipient", n.recipient.text)]).bind fun _ => .pure n
        else
          (Logged.report .warn "User lookup failed, keeping original recipient"
            [("event_id", context.id), ("recipient", n.recipient.text),
              ("error", e.message)]).bind fun _ => .pure n

def enrichAll (store : UserStore) (context : Context) :
    List Notification → Logged (List Notification)
  | [] => .pure []
  | n :: rest =>
    (enrichOne store context n).bind fun n =>
      (enrichAll store context rest).bind fun rest => .pure (n :: rest)

/-- The notification for a group: the first one, for the merge of all recipients. -/
def collapse (ns : List Notification) (members : List Nat) : Option Notification :=
  (members.head?.bind fun i => ns[i]?).map fun n =>
    n.withRecipient (IdentifierSet.mergeGroup (ns.map Notification.recipient) members)

def mergeDuplicates (context : Context) (ns : List Notification) : Logged (List Notification) :=
  let groups := IdentifierSet.groupPositions (ns.map Notification.recipient)
  if groups.length = ns.length then .pure ns
  else
    (Logged.report .debug "Collapsed duplicate recipients"
      [("event_id", context.id), ("before", toString ns.length),
        ("after", toString groups.length)]).bind fun _ => .pure (groups.filterMap (collapse ns))

def keepAddressed (context : Context) (ns : List Notification) : Logged (List Notification) :=
  let kept := ns.filter fun n => !n.recipient.isEmpty
  if kept.length < ns.length then
    (Logged.report .debug "Dropped unaddressed notifications"
      [("event_id", context.id), ("dropped", toString (ns.length - kept.length))]).bind fun _ =>
        .pure kept
  else .pure kept

def route (sink : Identifier) (n : Notification) : Notification :=
  if n.recipient.isEmpty then n.withRecipient (.singleton sink) else n

end Herald.Processor
