import Herald.Dispatch
import Herald.Http.Address
import Herald.Processor.Chain
import Herald.Server.Page
import Herald.Source

/-!
Servers. A server is built from named sources, a chain of processors, transports, a store of users
and a default for preferences; what could not work together is refused before it starts.
-/

namespace Herald

/-- What a server is built from. -/
structure Server.Options where
  address : Http.Address
  sources : List (String × Source)
  processors : List Processor
  transports : List Transport
  store : Option UserStore
  fallback : Option Provider
  pages : List Page

inductive Server.Unfit where
  | noTransports
  | duplicateTransport (key : String)
  | duplicateSource (key : String)
  | badSourceKey (key : String)
deriving DecidableEq, Repr

def Server.Unfit.message : Server.Unfit → String
  | .noTransports => "at least one transport is required"
  | .duplicateTransport key => s!"transport {key} is registered twice"
  | .duplicateSource key => s!"parser {Text.quote key} is registered twice"
  | .badSourceKey key =>
    s!"invalid parser key {Text.quote key}: use lowercase letters, digits, '-' and '_'"

/-- A server and what it holds at the moment. -/
structure Server where
  address : Http.Address
  sources : Dictionary Source
  processors : List Processor
  transports : List Transport
  store : UserStore
  fallback : Provider
  pages : List Server.Page

namespace Server

/-- Nothing chosen yet. Port 3000 is the default. -/
def Options.blank : Options :=
  ⟨.anyHost 3000, [], [], [], none, none, []⟩

def repeatedKey : (earlier : List String) → List String → Option String
  | _, [] => none
  | earlier, key :: rest =>
    if earlier.contains key then some key else repeatedKey (key :: earlier) rest

def isKeyChar (c : Char) : Bool :=
  c.isLower || c.isDigit || c == '-' || c == '_'

def isSourceKey (key : String) : Bool :=
  key != "" && key.toList.all isKeyChar

/-- Adds sources one after another; none may have a bad key or the key of an earlier one. -/
def register (sources : Dictionary Source) :
    List (String × Source) → Except Unfit (Dictionary Source)
  | [] => .ok sources
  | (key, source) :: rest =>
    if !isSourceKey key then .error (.badSourceKey key)
    else if sources.hasKey key then .error (.duplicateSource key)
    else register (sources.set key source) rest

def build (o : Options) : Except Unfit Server :=
  if o.transports.isEmpty then .error .noTransports
  else
    match repeatedKey [] (o.transports.map Transport.key) with
    | some key => .error (.duplicateTransport key)
    | none => do
      let sources ← register ∅ o.sources
      .ok ⟨o.address, sources, o.processors, o.transports, o.store.getD (.ofUsers []),
        o.fallback.getD (.always true), o.pages⟩

/-- The default preference, which may itself go by what is stored at the moment. -/
def defaultPreference (s : Server) : Provider :=
  s.fallback.withStore s.store

/-- The preferences that count: stored ones first. -/
def preferences (s : Server) : Provider :=
  .chain [.users s.store, s.defaultPreference]

/-- The types of all events that some source makes, in ascending order. -/
def eventTypes (s : Server) : List String :=
  let types := s.sources.values.flatMap Source.eventTypes
  (Ascending.ofList (types.map EventType.key) : Ascending String id).toList

def transportKeys (s : Server) : List String :=
  s.transports.map Transport.key

def notifier (s : Server) : Notifier :=
  ⟨s.transports, s.preferences⟩

end Server

end Herald
