import Herald.Http.Address
import Herald.Transport.Slack

/-!
Settings of the program: where it listens, where its users are kept, which sources and transports it
has. Each is chosen on the command line or in the environment, or has a default.
-/

namespace Herald

structure Settings where
  listen : Http.Address
  /-- The database of users; without one they are kept in memory. -/
  database : Option String
  users : Option String
  writer : Bool
  blackhole : Bool
  slackToken : Option String
  slackAddress : String
  githubSecret : Option String
  gitlabToken : Option String
  defaultPreference : Bool
  timeoutSeconds : Nat
  retries : Nat

namespace Settings

def standard : Settings where
  listen := .anyHost 3000
  database := none
  users := none
  writer := false
  blackhole := false
  slackToken := none
  slackAddress := Slack.publicAddress
  githubSecret := none
  gitlabToken := none
  defaultPreference := true
  timeoutSeconds := 10
  retries := 3

inductive Item where
  | listen
  | database
  | users
  | writer
  | blackhole
  | slackToken
  | slackAddress
  | githubSecret
  | gitlabToken
  | defaultPreference
  | timeoutSeconds
  | retries
deriving DecidableEq, Repr

namespace Item

def all : List Item :=
  [.listen, .database, .users, .writer, .blackhole, .slackToken, .slackAddress, .githubSecret,
    .gitlabToken, .defaultPreference, .timeoutSeconds, .retries]

def name : Item → String
  | .listen => "listen"
  | .database => "database"
  | .users => "users"
  | .writer => "writer"
  | .blackhole => "blackhole"
  | .slackToken => "slack-token"
  | .slackAddress => "slack-api-url"
  | .githubSecret => "github-secret"
  | .gitlabToken => "gitlab-token"
  | .defaultPreference => "default-preference"
  | .timeoutSeconds => "transport-timeout-secs"
  | .retries => "transport-retries"

def environmentName : Item → Option String
  | .timeoutSeconds => none
  | .retries => none
  | item => some (String.ofList (item.name.toList.map fun c => if c = '-' then '_' else c.toUpper))

def isFlag : Item → Bool
  | .writer => true
  | .blackhole => true
  | _ => false

def ofName (name : String) : Option Item :=
  all.find? fun item => item.name == name

end Item

inductive Usage where
  | badValue (item : Item)
  | unreadableValue (item : Item)
  | repeated (item : Item)
  | unwantedValue (name : String)
  | unknown (argument : String)
  | help
  | version
deriving DecidableEq, Repr

def truth? : String → Option Bool
  | "true" => some true
  | "false" => some false
  | _ => none

def digits? (s : List Char) : Option Nat :=
  if s.isEmpty then none
  else s.foldlM (fun n c => if c.isDigit then some (10 * n + (c.toNat - 48)) else none) 0

/-- A number of at most `cap`, before which a plus sign may stand. -/
def seconds? (cap : Nat) (s : String) : Option Nat := do
  let n ← digits? (match s.toList with
    | '+' :: rest => rest
    | digits => digits)
  if n ≤ cap then some n else none

/-- A number of attempts. It may be written as zero below zero. -/
def attempts? (s : String) : Option Nat :=
  match s.toList with
  | '-' :: rest => (digits? rest).bind fun n => if n = 0 then some 0 else none
  | _ => seconds? (Nat.pow 2 32 - 1) s

def reading {α : Type} (item : Item) : Option α → Except Usage α
  | some a => .ok a
  | none => .error (.unreadableValue item)

def choosing (item : Item) (value : String) : Except Usage Bool :=
  match truth? value with
  | some b => .ok b
  | none => .error (.badValue item)

def path (item : Item) (value : String) : Except Usage String :=
  if value = "" then .error (.badValue item) else .ok value

def assign (s : Settings) (item : Item) (value : String) : Except Usage Settings :=
  match item with
  | .listen => do .ok { s with listen := ← reading item (Http.Address.parse value) }
  | .database => do .ok { s with database := some (← path item value) }
  | .users => do .ok { s with users := some (← path item value) }
  | .writer => do .ok { s with writer := ← choosing item value }
  | .blackhole => do .ok { s with blackhole := ← choosing item value }
  | .slackToken => .ok { s with slackToken := some value }
  | .slackAddress => .ok { s with slackAddress := value }
  | .githubSecret => .ok { s with githubSecret := some value }
  | .gitlabToken => .ok { s with gitlabToken := some value }
  | .defaultPreference => do .ok { s with defaultPreference := ← choosing item value }
  | .timeoutSeconds => do
    .ok { s with timeoutSeconds := ← reading item (seconds? (Nat.pow 2 64 - 1) value) }
  | .retries => do .ok { s with retries := ← reading item (attempts? value) }

end Settings

end Herald
