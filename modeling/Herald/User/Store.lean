import Herald.Log
import Herald.User.Directory
import Herald.User.Table
import Herald.Validation

/-!
User stores. A store keeps its users in a directory or a table, and parts of it may be out of reach.
From a set of identifiers it resolves the first one, in key order, that names a user.
-/

namespace Herald

inductive UserStore.Backing where
  | directory (users : Directory)
  | table (rows : Table)

structure UserStore.Outage where
  /-- The keys and identifiers that cannot be asked for; `*` stands for all. -/
  unreachable : List String
  /-- Why every query fails, if the database is broken. -/
  fault : Option String
  /-- The startup check that is made instead of the store's own. -/
  check : Option Check

structure UserStore where
  backing : UserStore.Backing
  outage : Option UserStore.Outage

namespace UserStore

def ofUsers (users : List User) : UserStore :=
  ⟨.directory users, none⟩

def emptyTable : UserStore :=
  ⟨.table [], none⟩

def isTable (s : UserStore) : Bool :=
  match s.backing with
  | .table _ => true
  | .directory _ => false

def reach (s : UserStore) (argument : String) : Except UserError Unit :=
  match s.outage with
  | some outage =>
    if outage.unreachable.contains "*" || outage.unreachable.contains argument then
      .error (.storage s!"down: {argument}")
    else
      match outage.fault with
      | some reason => .error (.storage reason)
      | none => .ok ()
  | none => .ok ()

def get (s : UserStore) (key : String) : Except UserError User := do
  s.reach key
  match s.backing with
  | .directory users => users.get key
  | .table rows => rows.get key

def resolve (s : UserStore) (id : Identifier) : Except UserError User := do
  s.reach id.text
  match s.backing with
  | .directory users => users.resolve id
  | .table rows => rows.resolve id

def setPreferences (s : UserStore) (key : String) (preferences : PreferenceMap) :
    Except UserError UserStore := do
  s.reach key
  match s.backing with
  | .directory users => .ok { s with backing := .directory (← users.setPreferences key preferences) }
  | .table rows => .ok { s with backing := .table (← rows.setPreferences key preferences) }

def put (s : UserStore) (user : User) : Except UserError UserStore := do
  s.reach user.key
  match s.backing with
  | .directory users => .ok { s with backing := .directory (users.put user) }
  | .table rows => .ok { s with backing := .table (rows.put user) }

/-- Tries the candidates one after another with `lookup`. Failures other than "not found" are kept:
the first failure of the store counts before the first ambiguity. -/
def firstResolved (lookup : Identifier → Except UserError User) (sought : String) :
    (failed ambiguous : Option UserError) → List Identifier → Logged (Except UserError User)
  | failed, ambiguous, [] =>
    .pure (.error ((failed <|> ambiguous).getD (.notFound sought)))
  | failed, ambiguous, id :: rest =>
    match lookup id with
    | .ok user => .pure (.ok user)
    | .error (.notFound _) => firstResolved lookup sought failed ambiguous rest
    | .error (.ambiguous s n) =>
      firstResolved lookup sought failed (ambiguous <|> some (.ambiguous s n)) rest
    | .error e =>
      (Logged.report .warn "User lookup failed, trying next identifier"
        [("identifier", id.text), ("error", e.message)]).bind fun _ =>
          firstResolved lookup sought (failed <|> some e) ambiguous rest

/-- The user that the first resolvable candidate names, where candidates are looked up by `lookup` in
key order. -/
def findBy (lookup : Identifier → Except UserError User) (candidates : IdentifierSet) :
    Logged (Except UserError User) :=
  firstResolved lookup candidates.text none none candidates.toList

def find (s : UserStore) (candidates : IdentifierSet) : Logged (Except UserError User) :=
  findBy s.resolve candidates

def tableName : String := "sqlite user store"

/-- The startup check of a table is a query. It takes no time, but gives others their turn meanwhile,
unless it is called off before. -/
def checkTable (fault : Option String) : Check := fun token tl =>
  let tl := if tl.isCancelled token then tl else tl.settle
  if tl.isCancelled token then (some (.error ⟨tableName, "cancelled", none⟩), tl)
  else
    match fault with
    | some reason =>
      (some (.error ⟨tableName, "database check failed",
        some (UserError.storage reason).message⟩), tl)
    | none => (some (.ok ()), tl)

/-- The startup check of the store, if it has one: only a database can be broken. -/
def startupCheck (s : UserStore) : Option Check :=
  match s.outage.bind Outage.check, s.backing with
  | some check, _ => some check
  | none, .table _ => some (checkTable (s.outage.bind Outage.fault))
  | none, .directory _ => none

end UserStore

end Herald
