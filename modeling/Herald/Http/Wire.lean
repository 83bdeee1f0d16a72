import Herald.Http.Message
import Herald.Json.Printer
import Herald.Text.Cut

/-!
Requests and responses as they go over a connection: a first line, headers, an empty line, and a body
whose length a header states.
-/

namespace Herald.Http

def trimmed (s : List Char) : List Char :=
  ((s.dropWhile Char.isWhitespace).reverse.dropWhile Char.isWhitespace).reverse

def headerOfLine (line : String) : Option (String × String) :=
  (Text.cutList ':' line.toList).map fun (name, value) =>
    (String.ofList (trimmed name), String.ofList (trimmed value))

def Request.ofHead (first : String) (lines : List String) : Option Request :=
  match (String.ofList (trimmed first.toList)).splitOn " " with
  | [method, target, _] => some ⟨method, target, lines.filterMap headerOfLine, []⟩
  | _ => none

def Request.bodyLength (r : Request) : Nat :=
  match r.headers.find? fun h => h.1.toLower == "content-length" with
  | some (_, value) => value.toNat?.getD 0
  | none => 0

def Content.typed : Content → String × String
  | .text s => ("text/plain; charset=utf-8", s)
  | .json j => ("application/json", j.text)

def Response.text (r : Response) : String :=
  let (type, body) := r.content.typed
  "\r\n".intercalate [s!"HTTP/1.1 {r.status.text}", s!"content-type: {type}",
    s!"content-length: {body.utf8ByteSize}", "", body]

end Herald.Http
