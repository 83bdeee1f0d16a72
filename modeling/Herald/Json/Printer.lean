import Herald.Decimal.Shortest
import Herald.Json.Basic
import Herald.Text.Hex

/-!
JSON text of a value, without blanks. Every string is written so that it reads back: quotes,
backslashes and controls are escaped, all other characters stand for themselves.
-/

namespace Herald.Json

def escapeControl (c : Char) : List Char :=
  ['\\', 'u', '0', '0', Text.Hex.digit (c.toNat / 16), Text.Hex.digit (c.toNat % 16)]

def escapeChar (c : Char) : List Char :=
  match c with
  | '"' => ['\\', '"']
  | '\\' => ['\\', '\\']
  | '\x08' => ['\\', 'b']
  | '\x0c' => ['\\', 'f']
  | '\n' => ['\\', 'n']
  | '\r' => ['\\', 'r']
  | '\t' => ['\\', 't']
  | c => if c.toNat < 0x20 then escapeControl c else [c]

def printString (s : String) : List Char :=
  '"' :: s.toList.flatMap escapeChar ++ ['"']

def Number.print : Number → List Char
  | .int n => (toString n).toList
  | .real x => if x.isFinite then (Decimal.compactText x).toList else "null".toList

def commaSeparated : List (List Char) → List Char
  | [] => []
  | [item] => item
  | item :: rest => item ++ ',' :: commaSeparated rest

mutual

def print : Json → List Char
  | .null => "null".toList
  | .bool b => if b then "true".toList else "false".toList
  | .number n => n.print
  | .string s => printString s
  | .array items => '[' :: commaSeparated (printItems items) ++ [']']
  | .object members => '\x7b' :: commaSeparated (printMembers members) ++ ['\x7d']

def printItems : List Json → List (List Char)
  | [] => []
  | item :: rest => print item :: printItems rest

def printMembers : List (String × Json) → List (List Char)
  | [] => []
  | (name, value) :: rest => (printString name ++ ':' :: print value) :: printMembers rest

end

def text (v : Json) : String :=
  String.ofList v.print

end Herald.Json
