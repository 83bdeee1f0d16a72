import Herald.Ascending
import Herald.Text.Cut

/-!
Identifiers name a person in some system: an optional namespace, a kind and a value, written
`[namespace/]kind:value`. Namespace and kind together are the key under which a value is known.
-/

namespace Herald

inductive Identifier.Part where
  | space
  | kind
deriving DecidableEq, Repr

inductive Identifier.Invalid where
  | emptyKind
  | emptyValue
  | emptySpace
  | separator (part : Identifier.Part) (text : String)
  | malformed (text : String)
deriving DecidableEq, Repr

/-- A part of a key is not empty and holds neither separator. -/
def Identifier.Plain (s : String) : Prop :=
  s ≠ "" ∧ '/' ∉ s.toList ∧ ':' ∉ s.toList

instance (s : String) : Decidable (Identifier.Plain s) :=
  inferInstanceAs (Decidable (_ ∧ _ ∧ _))

/-- The part of an identifier that says what its value means: an optional namespace and a kind. -/
structure Identifier.Key where
  space : Option String
  kind : String
  space_plain : ∀ s ∈ space, Identifier.Plain s
  kind_plain : Identifier.Plain kind
deriving DecidableEq

structure Identifier where
  key : Identifier.Key
  /-- The value, never empty. -/
  value : String
  value_ne_empty : value ≠ ""
deriving DecidableEq

namespace Identifier

def emailKind : String := "email"

def usernameKind : String := "username"

def idKind : String := "id"

/-- The kind that only the discarding transport accepts. -/
def blackholeKind : String := "blackhole"

def Part.fault (part : Part) (s : String) : Invalid :=
  if s = "" then
    match part with
    | .space => .emptySpace
    | .kind => .emptyKind
  else .separator part s

theorem plain_of_mem_none : ∀ s ∈ (none : Option String), Plain s := by
  simp

namespace Key

/-- The key of a namespace and a kind. The kind is checked first. -/
def make (space : Option String) (kind : String) : Except Invalid Key :=
  if hk : Plain kind then
    match space with
    | none => .ok ⟨none, kind, plain_of_mem_none, hk⟩
    | some s =>
      if hs : Plain s then .ok ⟨some s, kind, by simpa using hs, hk⟩
      else .error (Part.space.fault s)
  else .error (Part.kind.fault kind)

def text (k : Key) : String :=
  match k.space with
  | some s => s ++ "/" ++ k.kind
  | none => k.kind

/-- The key a text `[namespace/]kind` names; the namespace ends at the first slash. -/
def parse (s : String) : Except Invalid Key :=
  match Text.cut '/' s with
  | some (space, kind) => make (some space) kind
  | none => make none s

/-- The characters by which keys are ordered: those of the namespace and a slash, then the kind. -/
def characters (k : Key) : List Char :=
  match k.space with
  | some s => s.toList ++ '/' :: k.kind.toList
  | none => k.kind.toList

instance : Ord Key := ⟨compareOn characters⟩

instance : Std.TransOrd Key := inferInstanceAs (Std.TransCmp (compareOn characters))

def withValue (k : Key) (value : String) : Except Invalid Identifier :=
  if h : value = "" then .error .emptyValue else .ok ⟨k, value, h⟩

end Key

def make (space : Option String) (kind value : String) : Except Invalid Identifier := do
  (← Key.make space kind).withValue value

def email (address : String) : Except Invalid Identifier :=
  make none emailKind address

/-- An identifier that only the discarding transport accepts. -/
def blackhole (label : String) : Except Invalid Identifier :=
  make none blackholeKind label

/-- The written form `[namespace/]kind:value`. -/
def text (id : Identifier) : String :=
  id.key.text ++ ":" ++ id.value

/-- The identifier a text names; its value is all that follows the first colon. -/
def parse (s : String) : Except Invalid Identifier :=
  match Text.cut ':' s with
  | some (key, value) => do (← Key.parse key).withValue value
  | none => .error (.malformed s)

instance : Ord Identifier := ⟨compareLex (compareOn key) (compareOn value)⟩

/-- The elements of a list in ascending order; equal ones keep their places among each other. -/
def sort {α : Type} [Ord α] (xs : List α) : List α :=
  xs.mergeSort fun a b => (compare a b).isLE

end Identifier

end Herald
