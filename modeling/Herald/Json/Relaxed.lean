import Herald.Json.Printer
import Herald.Json.Reader

/-!
JSON as people write it by hand: with comments, apostrophes for quotes, names without quotes, commas
at the end, hexadecimal numbers and lines that go on in the next one. A value keeps how its strings
were written, so that it can be printed as strict JSON with the same escapes.
-/

namespace Herald.Json.Relaxed

/-- One sign of a string as it stands between the quotes. -/
inductive Glyph where
  | plain (c : Char)
  /-- A backslash and a letter or mark that strict JSON knows, too. -/
  | escaped (c : Char)
  | quad (a b c d : Char)
  | pair (a b : Char)
  | apostrophe
  | verticalTab
  | null
  /-- A backslash at the end of a line: the string goes on in the next line. -/
  | joint
deriving DecidableEq, Repr

def Glyph.print : Glyph → List Char
  | plain c => escapeChar c
  | escaped c => ['\\', c]
  | quad a b c d => ['\\', 'u', a, b, c, d]
  | pair a b => ['\\', 'u', '0', '0', a, b]
  | apostrophe => ['\'']
  | verticalTab => ['\\', 'u', '0', '0', '0', 'b']
  | null => ['\\', 'u', '0', '0', '0', '0']
  | joint => []

/-- What the sign contributes to the text of the string; a joint contributes nothing. -/
def Glyph.unit? : Glyph → Option Reader.Unit
  | plain c => some (.char c)
  | escaped c => (Reader.simpleEscape c).map .char
  | quad a b c d => (Reader.hexQuad a b c d).map .ofQuad
  | pair a b => (Reader.hexQuad '0' '0' a b).map .ofQuad
  | apostrophe => some (.char '\'')
  | verticalTab => some (.char '\x0b')
  | null => some (.char '\x00')
  | joint => none

/-- The characters that signs spell, where codes of halves must come in pairs. A joint at the very
end, which has no next line, spells the null character. -/
def spell : List Glyph → Option (List Char)
  | [] => some []
  | first :: rest =>
    match first.unit? with
    | none => if rest.isEmpty then some ['\x00'] else spell rest
    | some (.char c) => (spell rest).map (c :: ·)
    | some (.half high) =>
      match rest with
      | [] => none
      | second :: rest =>
        match second.unit? with
        | some (.half low) =>
          match Reader.joinHalves high low, spell rest with
          | some c, some cs => some (c :: cs)
          | _, _ => none
        | _ => none
    | some .gap => none

def stringText (body : List Glyph) : Option String :=
  (spell body).map String.ofList

structure Scalar where
  text : List Char
  /-- False for a hexadecimal number beyond 64 bits, which has a text, but no value. -/
  hasValue : Bool
deriving DecidableEq, Repr

def Scalar.ofText (text : List Char) : Scalar :=
  ⟨text, true⟩

inductive Value where
  | scalar (s : Scalar)
  | string (body : List Glyph)
  | array (items : List Value)
  | object (members : List (List Glyph × Value))

def printBody (body : List Glyph) : List Char :=
  '"' :: body.flatMap Glyph.print ++ ['"']

mutual

def Value.print : Value → List Char
  | .scalar s => s.text
  | .string body => printBody body
  | .array items => '[' :: commaSeparated (printItems items) ++ [']']
  | .object members => '\x7b' :: commaSeparated (printMembers members) ++ ['\x7d']

def printItems : List Value → List (List Char)
  | [] => []
  | item :: rest => item.print :: printItems rest

def printMembers : List (List Glyph × Value) → List (List Char)
  | [] => []
  | (name, value) :: rest => (printBody name ++ ':' :: value.print) :: printMembers rest

end

/-- The text that a value stands for in comparisons with texts: a string for what it spells, an array
or object for its strict JSON, and numbers and words for none. -/
def Value.comparable? : Value → Option String
  | .scalar _ => none
  | .string body => stringText body
  | v => some (String.ofList v.print)

def Value.hasValue : Value → Bool
  | .scalar s => s.hasValue
  | _ => true

/-- The direct parts of a value, with the names that they have in an object. A value without parts is
its own part. -/
def Value.parts : Value → List (Option String × Value)
  | .array items => items.map (none, ·)
  | .object members => members.map fun (name, v) => (stringText name, v)
  | v => [(none, v)]

end Herald.Json.Relaxed
