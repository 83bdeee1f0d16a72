/-!
What the program reports about its work. A record has a level, a message and named details; a
computation that reports carries its records along in order.
-/

namespace Herald

inductive Log.Level where
  | error
  | warn
  | info
  | debug
  | trace
deriving DecidableEq, Repr

def Log.Level.name : Log.Level → String
  | .error => "ERROR"
  | .warn => "WARN"
  | .info => "INFO"
  | .debug => "DEBUG"
  | .trace => "TRACE"

def Log.Level.named? (name : String) : Option Log.Level :=
  [error, warn, info, debug, trace].find? fun level => level.name == name

structure Log.Record where
  level : Log.Level
  message : String
  details : List (String × String)
deriving DecidableEq, Repr

abbrev Log : Type :=
  List Log.Record

structure Logged (α : Type) where
  value : α
  log : Log

namespace Logged

variable {α β : Type}

def pure (a : α) : Logged α :=
  ⟨a, []⟩

/-- Goes on with the value; later records come after earlier ones. -/
def bind (x : Logged α) (f : α → Logged β) : Logged β :=
  let y := f x.value
  ⟨y.value, x.log ++ y.log⟩

@[simp] theorem value_pure (a : α) : (pure a).value = a := rfl

@[simp] theorem value_bind (x : Logged α) (f : α → Logged β) :
    (x.bind f).value = (f x.value).value := rfl

instance : Monad Logged where
  pure := pure
  bind := bind

def report (level : Log.Level) (message : String) (details : List (String × String)) :
    Logged Unit :=
  ⟨(), [⟨level, message, details⟩]⟩

end Logged

end Herald
