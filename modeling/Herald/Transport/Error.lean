/-!
Failed pushes. A transient failure may go away when the push is tried again, a permanent one will
not.
-/

namespace Herald

structure PushError where
  permanent : Bool
  message : String
deriving DecidableEq, Repr

namespace PushError

def transient (message : String) : PushError :=
  ⟨false, message⟩

def lasting (message : String) : PushError :=
  ⟨true, message⟩

def cancelled : PushError :=
  transient "cancelled before delivery"

def toPermanent (e : PushError) : PushError :=
  { e with permanent := true }

def suffix (e : PushError) : String :=
  if e.permanent then " (permanent)" else ""

def text (e : PushError) : String :=
  e.message ++ e.suffix

end PushError

end Herald
