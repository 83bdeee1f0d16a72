import Herald.Event.Id
import Herald.Http.Wire
import Herald.Server.Routing
import Herald.Server.Startup
import Herald.Settings.Build
import Herald.Settings.CommandLine
import Std.Time.DateTime.Timestamp

/-!
The program. It builds a server from the command line and the environment, and answers the requests
of one connection, which come in on standard input; responses go to standard output, everything else
to standard error.
-/

namespace Herald.Main

def scope : String := "HERALD_"

def network : Network :=
  ⟨⟨"unreachable:", [], []⟩, none⟩

def environment : IO (List (String × String)) := do
  let names := Settings.Item.all.filterMap Settings.Item.environmentName
  let values ← names.mapM fun name => do
    return (← IO.getEnv (scope ++ name)).map fun value => (scope ++ name, value)
  return values.filterMap id

def readText (path : String) : IO (Except String String) := do
  try
    return .ok (← IO.FS.readFile path)
  catch e =>
    return .error e.toString

/-- The rows of a database as a file keeps them: one array of users. -/
def rowsOf (text : String) : Table :=
  match Json.decodeText (Json.Decoder.list User.decoder) text with
  | .ok users => users.foldl Table.put []
  | .error _ => []

def disk (s : Settings) : IO Disk := do
  let files : Dictionary (Except String String) ← match s.users with
    | some path => do pure (Dictionary.set ∅ path (← readText path))
    | none => pure ∅
  match s.database with
  | some path =>
    let rows := match ← readText path with
      | .ok text => rowsOf text
      | .error _ => []
    return ⟨files, Dictionary.set ∅ path rows, []⟩
  | none => return ⟨files, ∅, []⟩

def keep (s : Settings) (d : Disk) : IO Unit := do
  match s.database with
  | some path =>
    match d.databases.get? path with
    | some rows =>
      let users := rows.filterMap fun r => r.user.toOption
      IO.FS.writeFile path (Json.array (users.map User.toJson)).text
    | none => return
  | none => return

def tell (tl : Timeline) : IO Unit := do
  for r in tl.log do
    IO.eprintln (" ".intercalate (r.level.name :: r.message :: r.details.map fun (name, value) =>
      s!"{name}={value}"))
  for s in tl.sightings do
    match s with
    | .wrote _ line => IO.eprint line
    | _ => pure ()

def arrival : IO Arrival := do
  let now ← Std.Time.Timestamp.now
  let bytes ← IO.getRandomBytes 16
  return ⟨EventId.ofBytes bytes.toList, .ofSeconds now.toSecondsSinceUnixEpoch.val.toNat⟩

partial def headLines (input : IO.FS.Stream) : IO (List String) := do
  let line ← input.getLine
  if line.trimAscii.isEmpty then return []
  return line :: (← headLines input)

partial def bodyBytes (input : IO.FS.Stream) (length : Nat) : IO (List UInt8) := do
  if length = 0 then return []
  let bytes ← input.read (USize.ofNat length)
  if bytes.isEmpty then return []
  return bytes.toList ++ (← bodyBytes input (length - bytes.size))

partial def answerAll (settings : Settings) (d : Disk) (server : Server) : IO Unit := do
  let input ← IO.getStdin
  match ← headLines input with
  | [] => return
  | first :: lines =>
    match Http.Request.ofHead first lines with
    | none => return
    | some head =>
      let r := { head with body := ← bodyBytes input head.bodyLength }
      let (response, server, tl) := Server.handle (← arrival) r (server, .start none)
      tell tl
      let d := settings.save server.store d
      keep settings d
      match response with
      | some response => do
        let output ← IO.getStdout
        output.putStr response.text
        output.flush
        answerAll settings d server
      | none => return

def run (settings : Settings) : IO UInt32 := do
  let found ← disk settings
  let built := settings.build network found
  keep settings (settings.install found).2
  tell { Timeline.start none with log := built.log }
  match built.value with
  | .error e => do
    IO.eprintln e.message
    return 1
  | .ok (options, d) =>
    match Server.build options with
    | .error e => do
      IO.eprintln e.message
      return 1
    | .ok server =>
      let (result, server, tl) := Server.validate .requests (server, .start none)
      tell tl
      match result with
      | some (.ok ()) => do
        answerAll settings d server
        return 0
      | some (.error e) => do
        IO.eprintln e.message
        return 1
      | none => return 1

end Herald.Main

def main (arguments : List String) : IO UInt32 := do
  match Herald.Settings.parse Herald.Main.scope (← Herald.Main.environment) arguments with
  | .ok settings => Herald.Main.run settings
  | .error .help => do
    IO.println Herald.Settings.helpText
    return 0
  | .error .version => do
    IO.println "herald 1.0"
    return 0
  | .error e => do
    IO.eprintln e.message
    return 2
