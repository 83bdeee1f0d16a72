import Herald.Json.Numeral
import Herald.Json.Tree
import Herald.Text.Hex
import Herald.Text.Utf8

/-!
Reading JSON text into a tree. The input is a list of characters in which a gap stands for each byte
that is no part of a character; a gap may stand in a string only, which then spells no text.
-/

namespace Herald.Json

/-- The characters of a text still to be read. -/
abbrev Input : Type :=
  List (Option Char)

namespace Input

def ofString (s : String) : Input :=
  s.toList.map some

def ofBytes (bytes : List UInt8) : Input :=
  Text.Utf8.decodeWithGaps bytes

def isBlank (c : Char) : Bool :=
  c == ' ' || c == '\n' || c == '\t' || c == '\r'

def skipBlanks : Input → Input
  | some c :: rest => if isBlank c then skipBlanks rest else some c :: rest
  | input => input

def skipWord : List Char → Input → Option Input
  | [], input => some input
  | c :: word, some d :: rest => if c = d then skipWord word rest else none
  | _, _ => none

def digits : Input → List Char × Input
  | some c :: rest =>
    if c.isDigit then
      let (more, rest) := digits rest
      (c :: more, rest)
    else ([], some c :: rest)
  | input => ([], input)

end Input

namespace Reader

open Input

/-- The digits of a number before its point: a zero stands alone. -/
def whole (input : Input) : Option (List Char × Input) :=
  match digits input with
  | ([], _) => none
  | ('0' :: _ :: _, _) => none
  | (ds, rest) => some (ds, rest)

def fraction : Input → Option (Option (List Char) × Input)
  | some '.' :: rest =>
    match digits rest with
    | ([], _) => none
    | (ds, rest) => some (some ds, rest)
  | input => some (none, input)

def exponentDigits (negative : Bool) (input : Input) :
    Option (Option (Bool × List Char) × Input) :=
  match digits input with
  | ([], _) => none
  | (ds, rest) => some (some (negative, ds), rest)

def exponent : Input → Option (Option (Bool × List Char) × Input)
  | some c :: rest =>
    if c = 'e' ∨ c = 'E' then
      match rest with
      | some '+' :: rest => exponentDigits false rest
      | some '-' :: rest => exponentDigits true rest
      | rest => exponentDigits false rest
    else some (none, some c :: rest)
  | input => some (none, input)

def numeral (negative : Bool) (input : Input) : Option (Numeral × Input) := do
  let (whole, input) ← whole input
  let (fraction, input) ← fraction input
  let (exponent, input) ← exponent input
  some (⟨negative, whole, fraction, exponent⟩, input)

def hexQuad (a b c d : Char) : Option Nat := do
  some ((((← Text.Hex.digitValue a) * 16 + (← Text.Hex.digitValue b)) * 16 +
    (← Text.Hex.digitValue c)) * 16 + (← Text.Hex.digitValue d))

def simpleEscape : Char → Option Char
  | '"' => some '"'
  | '\\' => some '\\'
  | '/' => some '/'
  | 'b' => some '\x08'
  | 'f' => some '\x0c'
  | 'n' => some '\n'
  | 'r' => some '\r'
  | 't' => some '\t'
  | _ => none

/-- One unit of a string: a character, half of a pair that spells one, or a gap. -/
inductive Unit where
  | char (c : Char)
  | half (n : Nat)
  | gap
deriving DecidableEq

def Unit.ofQuad (n : Nat) : Unit :=
  if 0xd800 ≤ n ∧ n < 0xe000 then .half n else .char (Char.ofNat n)

def Unit.cons (u : Option Unit) (rest : Option (List Unit × Input)) : Option (List Unit × Input) :=
  match u, rest with
  | some u, some (us, rest) => some (u :: us, rest)
  | _, _ => none

def units : Input → Option (List Unit × Input)
  | some '"' :: rest => some ([], rest)
  | some '\\' :: some 'u' :: some a :: some b :: some c :: some d :: rest =>
    Unit.cons ((hexQuad a b c d).map .ofQuad) (units rest)
  | some '\\' :: some c :: rest => Unit.cons ((simpleEscape c).map .char) (units rest)
  | some c :: rest =>
    Unit.cons (if c = '\\' ∨ c.toNat < 0x20 then none else some (.char c)) (units rest)
  | none :: rest => Unit.cons (some .gap) (units rest)
  | [] => none

def joinHalves (high low : Nat) : Option Char :=
  if high < 0xdc00 ∧ 0xdc00 ≤ low then
    some (Char.ofNat (0x10000 + (high - 0xd800) * 0x400 + (low - 0xdc00)))
  else none

/-- The characters that units spell: halves must come in pairs, and there must be no gap. -/
def spell : List Unit → Option (List Char)
  | [] => some []
  | .char c :: rest => (spell rest).map (c :: ·)
  | .half high :: .half low :: rest =>
    match joinHalves high low, spell rest with
    | some c, some cs => some (c :: cs)
    | _, _ => none
  | _ => none

def string (input : Input) : Option (Option String × Input) :=
  (units input).map fun (us, rest) => ((spell us).map String.ofList, rest)

/-- A value that is neither array nor object, from its first character on. -/
def scalar (c : Char) (rest : Input) : Tree × Option Input :=
  match c with
  | 'n' => literal .null (skipWord "ull".toList rest)
  | 't' => literal (.bool true) (skipWord "rue".toList rest)
  | 'f' => literal (.bool false) (skipWord "alse".toList rest)
  | '"' =>
    match string rest with
    | some (s, rest) => (.string s, some rest)
    | none => (.broken, none)
  | '-' => number (numeral true rest)
  | c => number (numeral false (some c :: rest))
where
  literal (t : Tree) : Option Input → Tree × Option Input
    | some rest => (t, some rest)
    | none => (.broken, none)
  number : Option (Numeral × Input) → Tree × Option Input
    | some (n, rest) => (.number n.value?, some rest)
    | none => (.broken, none)

mutual

/-- The value that comes next, and the input after it unless the grammar was left. Every
character is worth at most two `steps`. -/
def value : (steps : Nat) → Input → Tree × Option Input
  | 0, _ => (.broken, none)
  | steps + 1, input =>
    match skipBlanks input with
    | some '[' :: rest =>
      match skipBlanks rest with
      | some ']' :: rest => (.array .done, some rest)
      | rest =>
        let (items, rest) := items steps rest
        (.array items, rest)
    | some '\x7b' :: rest =>
      match skipBlanks rest with
      | some '\x7d' :: rest => (.object .done, some rest)
      | rest =>
        let (members, rest) := members steps rest
        (.object members, rest)
    | some c :: rest => scalar c rest
    | _ => (.broken, none)

/-- The items of an array up to its closing bracket, of which there is at least one. -/
def items : (steps : Nat) → Input → Items × Option Input
  | 0, _ => (.cut, none)
  | steps + 1, input =>
    match value steps input with
    | (head, none) => (.next head .cut, none)
    | (head, some rest) =>
      match skipBlanks rest with
      | some ']' :: rest => (.next head .done, some rest)
      | some ',' :: rest =>
        let (tail, rest) := items steps rest
        (.next head tail, rest)
      | _ => (.next head .cut, none)

/-- The members of an object up to its closing brace, of which there is at least one. -/
def members : (steps : Nat) → Input → Members × Option Input
  | 0, _ => (.cut, none)
  | steps + 1, input =>
    match skipBlanks input with
    | some '"' :: rest =>
      match string rest with
      | none => (.cut, none)
      | some (name, rest) =>
        match skipBlanks rest with
        | some ':' :: rest =>
          match value steps rest with
          | (v, none) => (.next name v .cut, none)
          | (v, some rest) =>
            match skipBlanks rest with
            | some '\x7d' :: rest => (.next name v .done, some rest)
            | some ',' :: rest =>
              let (tail, rest) := members steps rest
              (.next name v tail, rest)
            | _ => (.next name v .cut, none)
        | _ => (.next name .broken .cut, none)
    | _ => (.cut, none)

end

end Reader

/-- A whole text: the value it begins with, and whether nothing but blanks follows. -/
structure Document where
  tree : Tree
  /-- True if only blanks follow it. -/
  ended : Bool

def Document.read (input : Input) : Document :=
  match Reader.value (2 * input.length + 2) input with
  | (tree, some rest) => ⟨tree, (Input.skipBlanks rest).isEmpty⟩
  | (tree, none) => ⟨tree, false⟩

end Herald.Json
