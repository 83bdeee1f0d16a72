import Herald.User.Basic

/-!
Why a user could not be looked up or stored. Not to be found and to be ambiguous are the same for
most callers: nobody is resolved.
-/

namespace Herald

inductive UserError where
  | notFound (sought : String)
  | ambiguous (sought : String) (count : Nat)
  /-- The store itself failed. -/
  | storage (reason : String)
  /-- A stored record could not be decoded. -/
  | badRecord (fault : Json.Fault)
deriving BEq

namespace UserError

def message : UserError → String
  | .notFound sought => s!"user not found: {sought}"
  | .ambiguous sought count => s!"user not found: {sought} matches {count} users"
  | .storage reason => s!"user store error: {reason}"
  | .badRecord fault => s!"user record JSON error: {fault.message}"

def isNotFound : UserError → Bool
  | .notFound _ => true
  | .ambiguous _ _ => true
  | _ => false

end UserError

namespace User

/-- The only one of the users that matched, if there is exactly one. -/
def single (sought : Identifier) : List User → Except UserError User
  | [] => .error (.notFound sought.text)
  | [u] => .ok u
  | us => .error (.ambiguous sought.text us.length)

end User

end Herald
