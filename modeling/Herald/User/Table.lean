import Herald.Json.Relaxed.Reader
import Herald.User.Error

/-!
A store that is a table of texts: one row per user, with preferences, identifiers and email addresses
as JSON. Identifiers are searched among the members of the stored objects; the column of addresses
serves the search for an email address in any namespace and is written only with a whole user.
-/

namespace Herald

structure Table.Row where
  key : String
  /-- The preferences as JSON. -/
  preferences : String
  /-- The identifiers as a JSON object. -/
  identifiers : String
  /-- All email addresses as a JSON array. -/
  emails : String
deriving DecidableEq, Repr

abbrev Table : Type :=
  List Table.Row

namespace Table

def Row.ofUser (u : User) : Row where
  key := u.key
  preferences := u.preferences.toJson.text
  identifiers := u.identifiers.toJson.text
  emails := (Json.array (u.emails.map .string)).text

/-- The user that a row stores. The identifiers are decoded first. -/
def Row.user (r : Row) : Except UserError User := do
  let identifiers ← (Json.decodeText IdentifierSet.decoder r.identifiers).mapError .badRecord
  let preferences ← (Json.decodeText PreferenceMap.decoder r.preferences).mapError .badRecord
  .ok ⟨r.key, identifiers, preferences⟩

/-- The texts that a column holds, with their names if it is an object. It may have been written by
hand; a column that is no JSON even so cannot be searched, nor can one with a part without value among
those that are `asked` for. -/
def columnTexts (asked : Option String → Bool) (column : String) :
    Except UserError (List (Option String × String)) :=
  match Json.Relaxed.read? column with
  | none => .error (.storage "malformed JSON")
  | some v =>
    if v.parts.all fun (name, part) => part.hasValue || !asked name then
      .ok (v.parts.filterMap fun (name, part) => part.comparable?.map (name, ·))
    else .error (.storage "malformed JSON")

def search (column : Row → String) (asked : Option String → Bool) (text : String) :
    Table → Except UserError (List Row)
  | [] => .ok []
  | r :: rest => do
    let texts ← columnTexts asked (column r)
    let more ← search column asked text rest
    .ok (if texts.any fun t => asked t.1 && t.2 == text then r :: more else more)

def holders (rows : Table) (id : Identifier) : Except UserError (List User) := do
  (← search Row.identifiers (· == some id.key.text) id.value rows).mapM Row.user

/-- The users with an email address, whatever its namespace. -/
def addressees (rows : Table) (address : String) : Except UserError (List User) := do
  (← search Row.emails (fun _ => true) address rows).mapM Row.user

def get (rows : Table) (key : String) : Except UserError User :=
  match rows.find? fun r => r.key == key with
  | some r => r.user
  | none => .error (.notFound key)

def resolve (rows : Table) (id : Identifier) : Except UserError User := do
  let exact ← rows.holders id
  if exact.isEmpty && id.key.kind == Identifier.emailKind then
    User.single id (← rows.addressees id.value)
  else User.single id exact

def hasKey (rows : Table) (key : String) : Bool :=
  rows.any fun r => r.key == key

def update (rows : Table) (key : String) (change : Row → Row) : Table :=
  rows.map fun r => if r.key = key then change r else r

def setPreferences (rows : Table) (key : String) (preferences : PreferenceMap) :
    Except UserError Table :=
  if rows.hasKey key then
    .ok (rows.update key fun r => { r with preferences := preferences.toJson.text })
  else .error (.notFound key)

def put (rows : Table) (user : User) : Table :=
  if rows.hasKey user.key then rows.update user.key fun _ => .ofUser user
  else rows ++ [.ofUser user]

end Table

end Herald
