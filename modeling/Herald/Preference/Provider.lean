import Herald.Notification
import Herald.Preference.Map
import Herald.User.Store

/-!
Preference providers answer whether a notification is wanted over a transport, or have no opinion. A
chain asks its providers in turn, and the first opinion counts.
-/

namespace Herald

/-- A source of opinions. -/
inductive Provider where
  /-- The wishes of a fixed map. -/
  | map (wishes : PreferenceMap)
  /-- The same opinion on everything. -/
  | always (wants : Bool)
  /-- The stored wishes of the user that the recipient resolves to. -/
  | users (store : UserStore)
  /-- The same in the store of the server that asks, as it is at the moment. -/
  | own
  /-- The first opinion of several providers. -/
  | chain (providers : List Provider)
  /-- A fixed answer, which may be to have no opinion, and a startup check, if there is one. -/
  | fixed (answer : Option Bool) (check : Option Check)
  /-- A provider from elsewhere, which takes no time to answer, and its startup check, if it has one. -/
  | custom (opinion : Notification → String → Logged (Option Bool)) (check : Option Check)

namespace Provider

def storedWish (store : UserStore) (n : Notification) (transport : String) :
    Logged (Option Bool) :=
  if n.recipient.isEmpty then .pure none
  else
    (store.find n.recipient).bind fun
      | .ok user => .pure (user.preferences.wish? n.context.type transport)
      | .error e =>
        if e.isNotFound then .pure none
        else
          (Logged.report .warn "preference lookup failed"
            [("recipient", n.recipient.text), ("error", e.message)]).bind fun _ => .pure none

mutual

/-- The provider within a server that has this store. -/
def withStore (store : UserStore) : Provider → Provider
  | .own => .users store
  | .chain providers => .chain (allWithStore store providers)
  | p => p

def allWithStore (store : UserStore) : List Provider → List Provider
  | [] => []
  | p :: rest => p.withStore store :: allWithStore store rest

end

mutual

/-- The opinion of a provider. Where there is no server, nobody knows of its store. -/
def wants (n : Notification) (transport : String) : Provider → Logged (Option Bool)
  | .map wishes => .pure (wishes.wish? n.context.type transport)
  | .always answer => .pure (some answer)
  | .users store => storedWish store n transport
  | .own => .pure none
  | .chain providers => firstOpinion n transport providers
  | .fixed answer _ => .pure answer
  | .custom opinion _ => opinion n transport

/-- The opinion of the first provider that has one; those after it are not asked. -/
def firstOpinion (n : Notification) (transport : String) :
    List Provider → Logged (Option Bool)
  | [] => .pure none
  | p :: rest =>
    (p.wants n transport).bind fun
      | some answer => .pure (some answer)
      | none => firstOpinion n transport rest

end

mutual

/-- True if the opinion has to be looked up in a table, which takes no time, but gives others their
turn meanwhile. -/
def waits (n : Notification) (transport : String) : Provider → Bool
  | .users store => store.isTable && !n.recipient.isEmpty
  | .chain providers => anyWaits n transport providers
  | _ => false

def anyWaits (n : Notification) (transport : String) : List Provider → Bool
  | [] => false
  | p :: rest =>
    p.waits n transport || ((p.wants n transport).value.isNone && anyWaits n transport rest)

end

/-- The startup check of a provider, if it has one. A chain has none. -/
def startupCheck : Provider → Option Check
  | .fixed _ check => check
  | .custom _ check => check
  | _ => none

end Provider

end Herald
