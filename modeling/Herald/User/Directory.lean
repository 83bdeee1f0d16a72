import Herald.User.Error

/-!
A store that is a list of users. An identifier is looked up exactly; only if nobody holds it so, and
it is an email address, everybody with that address in any namespace matches.
-/

namespace Herald

abbrev Directory : Type :=
  List User

namespace Directory

def get (users : Directory) (key : String) : Except UserError User :=
  match users.find? fun u => u.key == key with
  | some u => .ok u
  | none => .error (.notFound key)

def holders (users : Directory) (id : Identifier) : List User :=
  users.filter fun u => u.identifiers.holds id

/-- The users with an email address, whatever its namespace. -/
def addressees (users : Directory) (address : String) : List User :=
  users.filter fun u => u.emails.contains address

def resolve (users : Directory) (id : Identifier) : Except UserError User :=
  let exact := users.holders id
  if exact.isEmpty && id.key.kind == Identifier.emailKind then
    User.single id (users.addressees id.value)
  else User.single id exact

def modify (key : String) (change : User → User) : Directory → Option Directory
  | [] => none
  | u :: rest =>
    if u.key = key then some (change u :: rest) else (modify key change rest).map (u :: ·)

def setPreferences (users : Directory) (key : String) (preferences : PreferenceMap) :
    Except UserError Directory :=
  match modify key (fun u => { u with preferences }) users with
  | some users => .ok users
  | none => .error (.notFound key)

def put (users : Directory) (user : User) : Directory :=
  (modify user.key (fun _ => user) users).getD (users ++ [user])

end Directory

end Herald
