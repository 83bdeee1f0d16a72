import Herald.Event.Context
import Herald.Identifier.Set
import Herald.Json.Basic

/-!
Notifications: messages to one person about one event. A transport renders the message made for it,
or else the common one.
-/

namespace Herald

structure Notification where
  context : Context
  recipient : IdentifierSet
  message : String
  messages : Dictionary String
  /-- Details beyond the text, by transport. -/
  options : Dictionary Json
deriving BEq

namespace Notification

def about (context : Context) : Notification :=
  ⟨context, ∅, "", ∅, ∅⟩

def withRecipient (n : Notification) (recipient : IdentifierSet) : Notification :=
  { n with recipient }

def withMessage (n : Notification) (message : String) : Notification :=
  { n with message }

def withMessageFor (n : Notification) (transport message : String) : Notification :=
  { n with messages := n.messages.set transport message }

def withOptionsFor (n : Notification) (transport : String) (options : Json) : Notification :=
  { n with options := n.options.set transport options }

def render (n : Notification) (transport : String) : String :=
  (n.messages.get? transport).getD n.message

def optionsFor (n : Notification) (transport : String) : Option Json :=
  n.options.get? transport

end Notification

end Herald
