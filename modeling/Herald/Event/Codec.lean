import Herald.Event.Context
import Herald.Json.Decoding

/-!
The JSON form of a context: an object that leaves out what is not known. Reading also takes an array
of the fields in order, and refuses an empty id or type as building a context does.
-/

namespace Herald.Context

def fieldsJson (c : Context) : List (String × Json) :=
  [("id", .string c.id), ("source", .string c.source), ("type", .string c.type)] ++
    (c.subject.map fun s => ("subject", Json.string s)).toList ++
    (c.time.map fun t => ("time", Json.string t.text)).toList ++
    if c.labels.isEmpty then [] else [("labels", Json.ofDictionary .string c.labels)]

def toJson (c : Context) : Json :=
  .ofMembers c.fieldsJson

structure Draft where
  id : Option String := none
  source : Option String := none
  type : Option String := none
  subject : Option (Option String) := none
  time : Option (Option Timestamp) := none
  labels : Option (Dictionary String) := none

def timeDecoder : Json.Decoder Timestamp
  | .string (some s) =>
    match Timestamp.parse s with
    | some t => .ok t
    | none => .error .badTime
  | t => .error (Json.Decoder.mismatch "an RFC 3339 formatted date and time string" t)

def Draft.assign (d : Draft) (name : String) (t : Json.Tree) : Except Json.Fault Draft :=
  match name with
  | "id" => do .ok { d with id := ← Json.once name d.id Json.Decoder.string t }
  | "source" => do .ok { d with source := ← Json.once name d.source Json.Decoder.string t }
  | "type" => do .ok { d with type := ← Json.once name d.type Json.Decoder.string t }
  | "subject" => do
    .ok { d with
      subject := ← Json.once name d.subject (Json.Decoder.optional Json.Decoder.string) t }
  | "time" => do
    .ok { d with time := ← Json.once name d.time (Json.Decoder.optional timeDecoder) t }
  | "labels" => do
    .ok { d with
      labels := ← Json.once name d.labels (Json.Decoder.dictionary Json.Decoder.string) t }
  | _ => do
    Json.Decoder.skip t
    .ok d

def record : Json.Record Draft where
  name := "ContextFields"
  fields := [⟨"id", false⟩, ⟨"source", false⟩, ⟨"type", false⟩, ⟨"subject", true⟩, ⟨"time", true⟩,
    ⟨"labels", true⟩]
  assign := Draft.assign

def Draft.finish (d : Draft) : Except Json.Fault Context := do
  let id ← Json.required "id" d.id
  let source ← Json.required "source" d.source
  let type ← Json.required "type" d.type
  (Context.ofParts id source type d.subject.join d.time.join (d.labels.getD ∅)).mapError
    fun e => .refused e.message

def decoder : Json.Decoder Context := fun t => do
  (← record.read {} t).finish

end Herald.Context
