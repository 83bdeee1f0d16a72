import Herald.Event.Basic
import Herald.Identifier.Message
import Herald.Log
import Herald.Notification
import Herald.Validation

/-!
Processors turn an event into notifications, each working on the list that the one before it left.
-/

namespace Herald

inductive ProcessError.Cause where
  | undecodable
  | invalidIdentifier (e : Identifier.Invalid)
deriving DecidableEq, Repr

/-- A processor that failed. No notification comes of the event. -/
structure ProcessError where
  processor : String
  reason : String
  cause : Option ProcessError.Cause
deriving DecidableEq, Repr

def ProcessError.message (e : ProcessError) : String :=
  s!"processor {e.processor} failed: {e.reason}"

abbrev Processed : Type :=
  Logged (Except ProcessError (List Notification))

/-- A step on the way from an event to notifications. -/
inductive Processor where
  | messages
  | forge
  | enrich
  | deduplicate
  | dropUnaddressed
  | routeUnaddressed (sink : Identifier)
  /-- A step from elsewhere: its name, its work, and its startup check, if it has one. -/
  | custom (name : String) (work : Event → List Notification → Processed) (check : Option Check)

namespace Processor

def name : Processor → String
  | .messages => "example-messages"
  | .forge => "forge"
  | .enrich => "enrich"
  | .deduplicate => "deduplicate"
  | .dropUnaddressed => "drop-unaddressed"
  | .routeUnaddressed _ => "route-unaddressed"
  | .custom name _ _ => name

def startupCheck : Processor → Option Check
  | .custom _ _ check => check
  | _ => none

def emit (ns : List Notification) : Processor :=
  .custom "emit" (fun _ before => .pure (.ok (before ++ ns))) none

def fail (reason : String) : Processor :=
  .custom "fail" (fun _ _ => .pure (.error ⟨"fail", reason, none⟩)) none

def picky (complaint : ValidationError) : Processor :=
  .custom "picky" (fun _ before => .pure (.ok before)) (some (.of (.error complaint)))

end Processor

end Herald
