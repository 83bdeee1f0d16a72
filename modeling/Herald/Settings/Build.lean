import Herald.Server.Basic
import Herald.Settings.Basic

/-!
From settings to a server. Users come from a database or start in memory, and those of a file are
stored on top. Nothing is stored if the file cannot be read as a whole.
-/

namespace Herald

structure Disk where
  /-- The text of each file, or why it cannot be read. -/
  files : Dictionary (Except String String)
  databases : Dictionary Table
  directories : List String

namespace Disk

def blank : Disk :=
  ⟨∅, ∅, [""]⟩

def directory (path : String) : String :=
  String.ofList (path.toList.reverse.dropWhile (· != '/')).reverse

def read (d : Disk) (path : String) : Except String String :=
  (d.files.get? path).getD (.error "No such file or directory (os error 2)")

def inMemory : String := ":memory:"

def openDatabase (d : Disk) (path : String) : Except UserError (Table × Disk) :=
  match d.databases.get? path with
  | some rows => .ok (rows, d)
  | none =>
    if path = inMemory then .ok ([], d)
    else if (d.files.get? path).isSome then .error (.storage "file is not a database")
    else if d.directories.contains (directory path) && directory path != path then
      .ok ([], { d with databases := d.databases.set path [] })
    else .error (.storage s!"unable to open database file: {path}")

end Disk

inductive BuildError where
  | store (e : UserError)
  | unreadableUsers (path reason : String)
  | malformedUsers (path : String) (fault : Json.Fault)
  | client (reason : String)
deriving BEq

def BuildError.message : BuildError → String
  | .store e => s!"failed to open user database: {e.message}"
  | .unreadableUsers path reason => s!"failed to read users from {path}: {reason}"
  | .malformedUsers path fault => s!"invalid users file {path}: {fault.message}"
  | .client reason => s!"failed to create Slack client: {reason}"

/-- The network as a build finds it. -/
structure Network where
  service : Slack.Service
  /-- Why no client of the service can be made, if none can. -/
  fault : Option String

namespace Settings

def unaddressedLabel : String := "unaddressed"

def unaddressed : Identifier where
  key := ⟨none, Identifier.blackholeKind, Identifier.plain_of_mem_none, by decide⟩
  value := unaddressedLabel
  value_ne_empty := by decide

def readUsers (d : Disk) (path : String) : Except BuildError (List User) :=
  match d.read path with
  | .error reason => .error (.unreadableUsers path reason)
  | .ok text =>
    (Json.decodeText (Json.Decoder.list User.decoder) text).mapError (.malformedUsers path)

def seed (store : UserStore) (users : List User) : Except BuildError UserStore :=
  users.foldlM (fun store u => (store.put u).mapError .store) store

def openBacking (s : Settings) (d : Disk) : Logged (Except BuildError (UserStore × Disk)) :=
  match s.database with
  | none => .pure (.ok (.ofUsers [], d))
  | some path =>
    (Logged.report .info "Using SQLite user store" [("path", path)]).bind fun _ =>
      .pure (match d.openDatabase path with
        | .ok (rows, d) => .ok (⟨.table rows, none⟩, d)
        | .error e => .error (.store e))

def save (s : Settings) (store : UserStore) (d : Disk) : Disk :=
  match s.database, store.backing with
  | some path, .table rows =>
    if path = Disk.inMemory then d else { d with databases := d.databases.set path rows }
  | _, _ => d

def addUsers (s : Settings) (store : UserStore) (d : Disk) :
    Logged (Except BuildError (UserStore × Disk)) :=
  match s.users with
  | none => .pure (.ok (store, d))
  | some path =>
    match readUsers d path with
    | .error e => .pure (.error e)
    | .ok users =>
      (Logged.report .info "Seeding users"
        [("path", path), ("count", toString users.length)]).bind fun _ =>
          .pure ((seed store users).map fun store => (store, s.save store d))

def openStore (s : Settings) (d : Disk) : Logged (Except BuildError (UserStore × Disk)) :=
  (s.openBacking d).bind fun
    | .ok (store, d) => s.addUsers store d
    | .error e => .pure (.error e)

/-- Stores users one after another, each on the disk at once. Those before a failure stay there. -/
def storeEach (s : Settings) : List User → UserStore → Disk → Except BuildError UserStore × Disk
  | [], store, d => (.ok store, d)
  | u :: rest, store, d =>
    match store.put u with
    | .ok store => s.storeEach rest store (s.save store d)
    | .error e => (.error (.store e), d)

/-- Opens the store and puts the users of the file into it: what comes of it, and the disk as it is
left, also after a failure. -/
def install (s : Settings) (d : Disk) : Except BuildError UserStore × Disk :=
  match (s.openBacking d).value with
  | .error e => (.error e, d)
  | .ok (store, d) =>
    match s.users with
    | none => (.ok store, d)
    | some path =>
      match readUsers d path with
      | .error e => (.error e, d)
      | .ok users => s.storeEach users store d

/-- The sources: messages, and the forges for which there is a secret. -/
def sources (s : Settings) : List (String × Source) :=
  [("example", .messages)] ++
    (s.githubSecret.map fun secret =>
      ("github", Source.ofHook (.github (Text.Utf8.encode secret)))).toList ++
    (s.gitlabToken.map fun token => ("gitlab", Source.ofHook (.gitlab token))).toList

def processors (s : Settings) : List Processor :=
  [.messages, .forge, .enrich, .deduplicate,
    if s.blackhole then .routeUnaddressed unaddressed else .dropUnaddressed]

/-- The transport to Slack: attempts within one deadline, and a report of what was delivered. -/
def slackTransport (s : Settings) (service : Slack.Service) (token : String) : Transport :=
  let client := (Slack.Client.make token).withAddress s.slackAddress
  (((Transport.ofEndpoint (.slack client service)).wrap
    (.retry (.make s.retries .standard))).wrap
    (.timeout (.ofSeconds s.timeoutSeconds))).wrap (.logging .info)

def transports (s : Settings) (service : Slack.Service) : List Transport :=
  (if s.writer then [(Transport.ofEndpoint (.writer none)).wrap (.logging .debug)] else []) ++
    (s.slackToken.map (s.slackTransport service)).toList ++
    if s.blackhole then [(Transport.ofEndpoint .blackhole).wrap (.logging .debug)] else []

def options (s : Settings) (store : UserStore) (service : Slack.Service) : Server.Options where
  address := s.listen
  sources := s.sources
  processors := s.processors
  transports := s.transports service
  store := some store
  fallback := some (.always s.defaultPreference)
  pages := []

/-- The service, unless a client of it is asked for and none can be made. -/
def connect (s : Settings) (network : Network) : Except BuildError Slack.Service :=
  match s.slackToken, network.fault with
  | some _, some reason => .error (.client reason)
  | _, _ => .ok network.service

/-- Builds what a server is made from. Users are stored before any client is made. -/
def build (s : Settings) (network : Network) (d : Disk) :
    Logged (Except BuildError (Server.Options × Disk)) :=
  (s.openStore d).bind fun opened =>
    .pure (opened.bind fun (store, d) =>
      (s.connect network).map fun service => (s.options store service, d))

end Settings

end Herald
