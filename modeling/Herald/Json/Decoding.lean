import Herald.Decimal.Shortest
import Herald.Json.Reader
import Herald.Text.Quoted

/-!
Decoding JSON into typed values. A decoder walks a tree from left to right and reports the first
fault it meets: a place where the text leaves the grammar, a value of the wrong kind, a field that is
missing or stands twice. Checks on a finished value come last.
-/

namespace Herald.Json

inductive Found where
  | null
  | bool (b : Bool)
  | number (n : Number)
  | string (s : String)
  | array
  | object
deriving BEq

inductive Fault where
  | grammar
  | wrongKind (found : Found) (expected : String)
  | missingField (name : String)
  | duplicateField (name : String)
  | tooShort (length : Nat) (expected : String)
  | tooLong (length : Nat)
  | badTime
  | refused (reason : String)
deriving BEq

def Found.describe : Found → String
  | .null => "null"
  | .bool b => s!"boolean `{b}`"
  | .number (.int n) => s!"integer `{n}`"
  | .number (.real x) => s!"floating point `{Decimal.compactText x}`"
  | .string s => s!"string {Text.quote s}"
  | .array => "sequence"
  | .object => "map"

def Fault.message : Fault → String
  | .grammar => "syntax"
  | .wrongKind found expected => s!"invalid type: {found.describe}, expected {expected}"
  | .missingField name => s!"missing field `{name}`"
  | .duplicateField name => s!"duplicate field `{name}`"
  | .tooShort length expected => s!"invalid length {length}, expected {expected}"
  | .tooLong length => s!"invalid length {length}, expected fewer elements in array"
  | .badTime => "invalid time"
  | .refused reason => reason

abbrev Decoder (α : Type) : Type :=
  Tree → Except Fault α

namespace Decoder

/-- The fault of a value of the wrong kind. A number without value and a string without text are
faults of their own. -/
def mismatch (expected : String) : Tree → Fault
  | .null => .wrongKind .null expected
  | .bool b => .wrongKind (.bool b) expected
  | .number (some n) => .wrongKind (.number n) expected
  | .number none => .grammar
  | .string (some s) => .wrongKind (.string s) expected
  | .string none => .grammar
  | .array _ => .wrongKind .array expected
  | .object _ => .wrongKind .object expected
  | .broken => .grammar

def string : Decoder String
  | .string (some s) => .ok s
  | t => .error (mismatch "a string" t)

def bool : Decoder Bool
  | .bool b => .ok b
  | t => .error (mismatch "a boolean" t)

def count : Decoder Nat
  | .number (some (.int n)) =>
    if 0 ≤ n then .ok n.toNat else .error (.wrongKind (.number (.int n)) "u64")
  | t => .error (mismatch "u64" t)

def optional {α : Type} (decode : Decoder α) : Decoder (Option α)
  | .null => .ok none
  | t => (decode t).map some

/-- A value that is not looked at; it must only follow the grammar. -/
def skip : Decoder PUnit := fun t =>
  if t.whole then .ok ⟨⟩ else .error .grammar

def items {α : Type} (decode : Decoder α) : Items → Except Fault (List α)
  | .done => .ok []
  | .cut => .error .grammar
  | .next head tail => do
    let a ← decode head
    let rest ← items decode tail
    .ok (a :: rest)

def list {α : Type} (decode : Decoder α) : Decoder (List α)
  | .array is => items decode is
  | t => .error (mismatch "a sequence" t)

def members {σ : Type} (visit : σ → String → Tree → Except Fault σ) :
    σ → Members → Except Fault σ
  | state, .done => .ok state
  | _, .cut => .error .grammar
  | _, .next none _ _ => .error .grammar
  | state, .next (some name) value tail => do
    let state ← visit state name value
    members visit state tail

def mapping {σ : Type} (start : σ) (visit : σ → String → Tree → Except Fault σ) : Decoder σ
  | .object ms => members visit start ms
  | t => .error (mismatch "a map" t)

/-- An object as a dictionary; of several members with the same name the last counts. -/
def dictionary {α : Type} (decode : Decoder α) : Decoder (Dictionary α) :=
  mapping ∅ fun entries name value => do
    let a ← decode value
    .ok (entries.set name a)

end Decoder

structure Field where
  name : String
  mayLack : Bool

/-- How a record is read: its fields in order, and what becomes of the value of a field. A record is
written as an object, or as an array of its fields in order. -/
structure Record (σ : Type) where
  name : String
  fields : List Field
  /-- Stores the value of the named field. Other names must only follow the grammar. -/
  assign : σ → String → Tree → Except Fault σ

namespace Record

variable {σ : Type}

def expectation (r : Record σ) : String :=
  s!"struct {r.name} with {r.fields.length} elements"

/-- Reads the items of an array as the fields in order. `length` items have been read before. -/
def ofItems (r : Record σ) (total : Nat) :
    (length : Nat) → List Field → σ → Items → Except Fault σ
  | _, _, _, .cut => .error .grammar
  | _, [], state, .done => .ok state
  | _, [], _, .next _ _ => .error (.tooLong total)
  | length, field :: fields, state, .done =>
    if field.mayLack then ofItems r total (length + 1) fields state .done
    else .error (.tooShort length r.expectation)
  | length, field :: fields, state, .next head tail => do
    let state ← r.assign state field.name head
    ofItems r total (length + 1) fields state tail

def read (r : Record σ) (start : σ) : Decoder σ
  | .object ms => Decoder.members r.assign start ms
  | .array is => r.ofItems is.length 0 r.fields start is
  | t => .error (Decoder.mismatch s!"struct {r.name}" t)

end Record

/-- Reads a field that may stand only once. -/
def once {α : Type} (name : String) (slot : Option α) (decode : Decoder α) (t : Tree) :
    Except Fault (Option α) :=
  if slot.isSome then .error (.duplicateField name) else (decode t).map some

def required {α : Type} (name : String) : Option α → Except Fault α
  | some a => .ok a
  | none => .error (.missingField name)

def Fault.inText : Fault → Fault
  | .tooLong _ => .grammar
  | fault => fault

/-- Decodes a whole text. What follows the value is looked at last. -/
def decodeInput {α : Type} (decode : Decoder α) (input : Input) : Except Fault α :=
  let document := Document.read input
  match decode document.tree with
  | .error fault => .error fault.inText
  | .ok a => if document.ended then .ok a else .error .grammar

def decodeText {α : Type} (decode : Decoder α) (s : String) : Except Fault α :=
  decodeInput decode (.ofString s)

def decodeBytes {α : Type} (decode : Decoder α) (bytes : List UInt8) : Except Fault α :=
  decodeInput decode (.ofBytes bytes)

def decodeValue {α : Type} (decode : Decoder α) (v : Json) : Except Fault α :=
  decode v.toTree

mutual

def ofTree (depth : Nat) : Tree → Except Fault Json
  | .null => .ok .null
  | .bool b => .ok (.bool b)
  | .number (some n) => .ok (.number n)
  | .number none => .error .grammar
  | .string (some s) => .ok (.string s)
  | .string none => .error .grammar
  | .array is => if depth ≤ 1 then .error .grammar else (ofItems (depth - 1) is).map .array
  | .object ms =>
    if depth ≤ 1 then .error .grammar else (ofMembersOf (depth - 1) ms).map .ofMembers
  | .broken => .error .grammar

def ofItems (depth : Nat) : Items → Except Fault (List Json)
  | .done => .ok []
  | .cut => .error .grammar
  | .next head tail => do
    let a ← ofTree depth head
    let rest ← ofItems depth tail
    .ok (a :: rest)

def ofMembersOf (depth : Nat) : Members → Except Fault (List (String × Json))
  | .done => .ok []
  | .cut => .error .grammar
  | .next none _ _ => .error .grammar
  | .next (some name) value tail => do
    let a ← ofTree depth value
    let rest ← ofMembersOf depth tail
    .ok ((name, a) :: rest)

end

/-- Any value. Arrays and objects may be nested 127 deep. -/
def anyValue : Decoder Json :=
  ofTree 128

end Herald.Json
