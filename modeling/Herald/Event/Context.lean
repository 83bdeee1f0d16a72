import Herald.Ascending
import Herald.Timestamp

/-!
The context of an event: which system reported it, what kind of event it is and when it happened. A
context is never changed; its `with…` functions give changed copies.
-/

namespace Herald

inductive Context.Invalid where
  | emptyId
  | emptyType
deriving DecidableEq, Repr

def Context.Invalid.message : Context.Invalid → String
  | .emptyId => "event id must not be empty"
  | .emptyType => "event type must not be empty"

structure Context where
  id : String
  source : String
  type : String
  subject : Option String
  time : Option Timestamp
  labels : Dictionary String
  id_ne_empty : ¬id = ""
  type_ne_empty : ¬type = ""
deriving DecidableEq

namespace Context

/-- A context with all its parts. The id is checked first. -/
def ofParts (id source type : String) (subject : Option String) (time : Option Timestamp)
    (labels : Dictionary String) : Except Invalid Context :=
  if hi : id = "" then .error .emptyId
  else if ht : type = "" then .error .emptyType
  else .ok ⟨id, source, type, subject, time, labels, hi, ht⟩

def make (id source type : String) : Except Invalid Context :=
  ofParts id source type none none ∅

def withSubject (c : Context) (subject : String) : Context :=
  { c with subject := some subject }

def withTime (c : Context) (time : Timestamp) : Context :=
  { c with time := some time }

def withLabel (c : Context) (name value : String) : Context :=
  { c with labels := c.labels.set name value }

def withLabels (c : Context) (labels : Dictionary String) : Context :=
  { c with labels }

def withType (c : Context) (type : String) : Except Invalid Context :=
  if h : type = "" then .error .emptyType else .ok { c with type, type_ne_empty := h }

end Context

end Herald
