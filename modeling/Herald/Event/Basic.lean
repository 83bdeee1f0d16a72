import Herald.Event.Context
import Herald.Json.Basic

/-!
Events: something that a source reported. Besides its context an event carries either a message from
one person to another or what a forge delivered to a webhook.
-/

namespace Herald

structure Message where
  sender : String
  addressee : String
  comment : String
deriving DecidableEq, Repr

structure Delivery where
  hook : String
  event : String
  id : Option String
  subject : Option String
  body : Json
deriving BEq

inductive Event.Content where
  | message (m : Message)
  | delivery (d : Delivery)
deriving BEq

structure Event where
  context : Context
  content : Event.Content
deriving BEq

structure EventType where
  key : String
  title : String
  description : String
deriving DecidableEq, Repr

def EventType.toJson (t : EventType) : Json :=
  .object [("description", .string t.description), ("key", .string t.key),
    ("title", .string t.title)]

end Herald
