import Herald.Http.Status
import Herald.Json.Basic
import Herald.Text.Cut
import Herald.Text.Hex
import Herald.Text.Utf8

/-!
Requests and responses of HTTP, and the parts of a path. A segment of a path may spell any bytes by
their numbers after percent signs; they make up a name only if they are well-formed text.
-/

namespace Herald.Http

structure Request where
  method : String
  target : String
  headers : List (String × String)
  body : List UInt8
deriving DecidableEq, Repr

inductive Content where
  | text (s : String)
  | json (j : Json)
deriving BEq

structure Response where
  status : Status
  content : Content
deriving BEq

namespace Response

def plain (status : Status) (s : String) : Response :=
  ⟨status, .text s⟩

def empty (status : Status) : Response :=
  plain status ""

def bare (r : Response) : Response :=
  empty r.status

end Response

def isSchemeChar (c : Char) : Bool :=
  c.isAlphanum || c == '+' || c == '-' || c == '.'

/-- The path of a request. It starts with a slash and ends before a query or a fragment. In a target
that is a whole address it stands behind the host; if it is missing there, it is a slash. -/
def Request.path? (r : Request) : Option (List Char) :=
  let cs := r.target.toList.takeWhile fun c => c != '?' && c != '#'
  match cs with
  | '/' :: _ => some cs
  | _ =>
    match cs.dropWhile isSchemeChar with
    | ':' :: '/' :: '/' :: rest =>
      match rest.dropWhile (· != '/') with
      | [] => some ['/']
      | path => some path
    | _ => none

def segments (path : List Char) : List String :=
  (Text.split '/' (path.drop 1)).map String.ofList

/-- The bytes that a segment spells. A percent sign without two digits stands for itself. -/
def unescape : List UInt8 → List UInt8
  | [] => []
  | 0x25 :: high :: low :: rest =>
    match Text.Hex.digitValue (Char.ofNat high.toNat), Text.Hex.digitValue (Char.ofNat low.toNat) with
    | some h, some l => UInt8.ofNat (16 * h + l) :: unescape rest
    | _, _ => 0x25 :: unescape (high :: low :: rest)
  | b :: rest => b :: unescape rest

def segmentName (segment : String) : Option String :=
  Text.Utf8.decode (unescape (Text.Utf8.encode segment))

end Herald.Http
