import Herald.Http.Pattern
import Herald.Server.Ingest
import Herald.Server.Preferences

/-!
Routing. The path of a request chooses what is asked for and the method how; names in a path may be
spelled with percent signs. Pages can be added under patterns of their own.
-/

namespace Herald.Server

inductive Route where
  | health
  /-- Events of the source that a segment names. -/
  | event (source : String)
  /-- The preferences of the user whom a segment names. -/
  | preferences (user : String)
  | configuration
  | page (answer : String)
deriving DecidableEq, Repr

/-- The route of a path. The key of a source is never empty. -/
def Route.ofSegments : List String → Option Route
  | ["healthz"] => some .health
  | ["event", source] => if source = "" then none else some (.event source)
  | ["users", user, "preferences"] => some (.preferences user)
  | ["configuration"] => some .configuration
  | _ => none

/-- The pattern of the paths that lead to a route of the server's own; a page has none. -/
def Route.pattern : Route → Http.Pattern
  | .health => .ofString healthPattern
  | .event _ => .ofString eventPattern
  | .preferences _ => .ofString preferencesPattern
  | .configuration => .ofString configurationPattern
  | .page _ => []

/-- True for the methods that only read. -/
def isReading (method : String) : Bool :=
  method == "GET" || method == "HEAD"

/-- The route of a request to a server: the one with the more exact pattern. A page under the very
pattern of another route leaves to it what does not only read. -/
def route (s : Server) (r : Http.Request) : Option Route := do
  let path ← r.path?
  let page := Http.Pattern.lookup path (s.pages.map fun p => (p.pattern, p.answer))
  match Route.ofSegments (Http.segments path), page with
  | some own, some (pattern, answer) =>
    match pattern.compare own.pattern with
    | .lt => some (.page answer)
    | .eq => some (if isReading r.method then .page answer else own)
    | .gt => some own
  | some own, none => some own
  | none, page => page.map fun (_, answer) => .page answer

def Route.allows (route : Route) (method : String) : Bool :=
  match route with
  | .event _ => method == "POST"
  | .preferences _ => isReading method || method == "PUT"
  | _ => isReading method

def sourceJson (key : String) (source : Source) : Json :=
  .object [("event_types", .array (source.eventTypes.map EventType.toJson)), ("key", .string key)]

def configuration (s : Server) : Json :=
  .object [("sources", .array (s.sources.toList.map fun (key, source) => sourceJson key source)),
    ("transports", .array (s.transportKeys.map fun key => .object [("key", .string key)]))]

def badSegment (name : String) : Http.Response :=
  .plain .badRequest s!"Invalid URL: Invalid UTF-8 in `{name}`"

def largestBody : Nat :=
  2 * 1024 * 1024

def tooLarge : Http.Response :=
  .plain .tooLarge "Failed to buffer the request body: length limit exceeded"

def answerPreferences (user : String) (r : Http.Request) (s : Server) :
    Logged (Http.Response × Server) :=
  match Http.segmentName user with
  | none => .pure (badSegment "key", s)
  | some key =>
    if r.method = "PUT" then
      if largestBody < r.body.length then .pure (tooLarge, s)
      else replacePreferences key r.body s
    else (showPreferences key s).bind fun answer => .pure (answer, s)

def answer (arrival : Arrival) (r : Http.Request) (token : Token) :
    Route → Course Server Http.Response
  | .health, (s, tl) => (some (.plain .ok "^_^\n"), s, tl)
  | .page text, (s, tl) => (some (.plain .ok text), s, tl)
  | .configuration, (s, tl) => (some ⟨.ok, .json s.configuration⟩, s, tl)
  | .preferences user, (s, tl) =>
    let answered := answerPreferences user r s
    (some answered.value.1, answered.value.2, tl.hear answered)
  | .event source, (s, tl) =>
    match Http.segmentName source with
    | none => (some (badSegment "parser"), s, tl)
    | some key =>
      if largestBody < r.body.length then (some tooLarge, s, tl)
      else ingest key arrival ⟨r.headers, r.body⟩ token (s, tl)

/-- Answers a request. Its token is cancelled when it has been answered. -/
def handle (arrival : Arrival) (r : Http.Request) : Course Server Http.Response
  | (s, tl) =>
    match s.route r with
    | none => (some (.empty .notFound), s, tl)
    | some route =>
      if route.allows r.method then
        let (token, tl) := tl.issue .requests
        let (response, s, tl) := answer arrival r token route (s, tl)
        (response.map fun x => if r.method = "HEAD" then x.bare else x, s, tl.cancel token)
      else (some (.empty .methodNotAllowed), s, tl)

end Herald.Server
