import Herald.Http.Status

/-!
Submissions: what a source sends to report an event, and how a submission may be turned down.
-/

namespace Herald

/-- What a source sends: named headers in the order in which they stand, and a body. -/
structure Submission where
  headers : List (String × String)
  body : List UInt8
deriving DecidableEq, Repr

namespace Submission

/-- True for text of visible ASCII characters, spaces and tabs. Only such a header can be read. -/
def isReadable (value : String) : Bool :=
  value.toList.all fun c => (' ' ≤ c && c ≤ '~') || c == '\t'

/-- The value of a header. Case does not matter in its name; of several with the same name the first
counts, and if it cannot be read there is none. -/
def header? (s : Submission) (name : String) : Option String :=
  match s.headers.find? fun h => h.1.toLower == name with
  | some (_, value) => if isReadable value then some value else none
  | none => none

end Submission

inductive ParseError where
  /-- The source is told what is wrong with the submission. -/
  | refused (status : Http.Status) (reason : String)
  /-- The event lacks what every event has. -/
  | malformed (reason : String)
  /-- The program itself failed. -/
  | internal (reason : String)
deriving DecidableEq, Repr

namespace ParseError

def badRequest (reason : String) : ParseError :=
  .refused .badRequest reason

def unauthorized (reason : String) : ParseError :=
  .refused .unauthorized reason

def status : ParseError → Http.Status
  | .refused status _ => status
  | _ => .internalError

def reason? : ParseError → Option String
  | .refused _ reason => some reason
  | _ => none

def message : ParseError → String
  | .refused status reason => s!"{reason} (HTTP {status.code})"
  | .malformed reason => s!"malformed event: {reason}"
  | .internal reason => s!"internal error: {reason}"

end ParseError

end Herald
