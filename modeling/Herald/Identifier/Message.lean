import Herald.Identifier.Basic
import Herald.Text.Quoted

/-!
The words in which a faulty identifier is reported.
-/

namespace Herald.Identifier

def Part.name : Part → String
  | .space => "namespace"
  | .kind => "kind"

def Invalid.message : Invalid → String
  | .emptyKind => "identifier kind must not be empty"
  | .emptyValue => "identifier value must not be empty"
  | .emptySpace => "identifier namespace must not be empty when present"
  | .separator part text => s!"invalid character in {part.name}: {Text.quote text}"
  | .malformed text =>
    s!"malformed identifier {Text.quote text}: expected [namespace/]kind:value"

end Herald.Identifier
