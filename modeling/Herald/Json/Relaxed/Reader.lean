import Herald.Json.Relaxed
import Herald.Text.Blank

/-!
Reading JSON as people write it by hand. All of strict JSON is read as strict JSON is, and a text ends
where a null character stands. Values may be nested a thousand deep.
-/

namespace Herald.Json.Relaxed

def isBlank (c : Char) : Bool :=
  (Text.isBlank c && c != '\u0085') || c == '\ufeff'

def endsLine (c : Char) : Bool :=
  c == '\n' || c == '\r' || c == '\u2028' || c == '\u2029'

def afterLine : List Char → List Char
  | [] => []
  | c :: rest => if endsLine c then rest else afterLine rest

/-- What follows the mark that ends a comment of several lines, if there is such a mark. -/
def afterMark : List Char → Option (List Char)
  | '*' :: '/' :: rest => some rest
  | _ :: rest => afterMark rest
  | [] => none

theorem length_afterLine (cs : List Char) : (afterLine cs).length ≤ cs.length := by
  induction cs with
  | nil => exact Nat.le_refl _
  | cons c rest ih =>
    unfold afterLine
    split
    · exact Nat.le_succ _
    · exact Nat.le_succ_of_le ih

theorem length_afterMark {cs rest : List Char} (h : afterMark cs = some rest) :
    rest.length ≤ cs.length := by
  fun_induction afterMark cs with
  | case1 rest' =>
    obtain rfl := Option.some.inj h
    exact Nat.le_add_right rest'.length 2
  | case2 _ _ _ ih => exact Nat.le_succ_of_le (ih h)
  | case3 => simp at h

/-- The text from the first character that belongs to neither a blank nor a comment. A comment
without end is none. -/
def skipBlanks : List Char → List Char
  | '/' :: '/' :: rest => skipBlanks (afterLine rest)
  | '/' :: '*' :: rest =>
    match _h : afterMark rest with
    | some after => skipBlanks after
    | none => '/' :: '*' :: rest
  | c :: rest => if isBlank c then skipBlanks rest else c :: rest
  | [] => []
termination_by cs => cs.length
decreasing_by
  · exact Nat.lt_add_right 1 (Nat.lt_succ_of_le (length_afterLine rest))
  · exact Nat.lt_add_right 1 (Nat.lt_succ_of_le (length_afterMark _h))
  · exact Nat.lt_succ_self _

def isHex (c : Char) : Bool :=
  (Text.Hex.digitValue c).isSome

def Glyph.cons (g : Option Glyph) (rest : Option (List Glyph × List Char)) :
    Option (List Glyph × List Char) :=
  match g, rest with
  | some g, some (gs, rest) => some (g :: gs, rest)
  | _, _ => none

def Glyph.ofEscape? (c : Char) : Option Glyph :=
  if c = '\'' then some .apostrophe
  else if c = 'v' then some .verticalTab
  else if c = '0' then some .null
  else if endsLine c then some .joint
  else if (Reader.simpleEscape c).isSome then some (.escaped c)
  else none

def stringBody (quote : Char) : List Char → Option (List Glyph × List Char)
  | '\\' :: 'u' :: a :: b :: c :: d :: rest =>
    Glyph.cons (if [a, b, c, d].all isHex then some (.quad a b c d) else none)
      (stringBody quote rest)
  | '\\' :: 'x' :: a :: b :: rest =>
    Glyph.cons (if isHex a && isHex b then some (.pair a b) else none) (stringBody quote rest)
  | '\\' :: '\r' :: '\n' :: rest => Glyph.cons (some .joint) (stringBody quote rest)
  | '\\' :: '0' :: d :: rest =>
    if d.isDigit then none else Glyph.cons (some .null) (stringBody quote (d :: rest))
  | '\\' :: c :: rest => Glyph.cons (Glyph.ofEscape? c) (stringBody quote rest)
  | c :: rest =>
    if c = quote then some ([], rest)
    else if c = '\\' then none
    else Glyph.cons (some (.plain c)) (stringBody quote rest)
  | [] => none

def startsName (c : Char) : Bool :=
  c.isAlpha || c == '$' || c == '_' || (0x80 ≤ c.toNat && !isBlank c)

def nameBody : List Char → List Glyph × List Char
  | '\\' :: 'u' :: a :: b :: c :: d :: rest =>
    if [a, b, c, d].all isHex then
      let (more, rest) := nameBody rest
      (.quad a b c d :: more, rest)
    else ([], '\\' :: 'u' :: a :: b :: c :: d :: rest)
  | c :: rest =>
    if startsName c || c.isDigit then
      let (more, rest) := nameBody rest
      (.plain c :: more, rest)
    else ([], c :: rest)
  | [] => ([], [])

/-- The strict JSON of a bare word. Not-a-number and infinity are known in either case of letters. -/
def bareWord? (run : List Char) : Option Scalar :=
  let folded := run.map Char.toLower
  if ["null".toList, "true".toList, "false".toList].contains run then some (.ofText run)
  else if ["inf".toList, "infinity".toList].contains folded then some (.ofText "9e999".toList)
  else if ["nan".toList, "qnan".toList, "snan".toList].contains folded then
    some (.ofText "null".toList)
  else none

def word? (cs : List Char) : Option (Scalar × List Char) :=
  (bareWord? (cs.takeWhile Char.isAlphanum)).map (·, cs.dropWhile Char.isAlphanum)

/-- The name of a member before its colon. A bare word is no name, nor is a number. -/
def name? (cs : List Char) : Option (List Glyph × List Char) :=
  match cs with
  | '"' :: rest => stringBody '"' rest
  | '\'' :: rest => stringBody '\'' rest
  | cs =>
    if (word? cs).isSome || cs.head?.any Char.isDigit then none
    else
      match nameBody cs with
      | ([], _) => none
      | named => some named

/-- The number that hexadecimal digits spell, in decimal digits. In 64 bits it has a value; beyond them
strict JSON has it infinite. -/
def ofHex (digits : List Char) : Scalar :=
  let n := digits.foldl (fun n c => 16 * n + (Text.Hex.digitValue c).getD 0) 0
  if n < Nat.pow 2 64 then .ofText (Nat.toDigits 10 n) else ⟨"9.0e999".toList, false⟩

def hexadecimal? : List Char → Option (Scalar × List Char)
  | '0' :: x :: rest =>
    if (x = 'x' ∨ x = 'X') ∧ rest.head?.any isHex then
      some (ofHex (rest.takeWhile isHex), rest.dropWhile isHex)
    else none
  | _ => none

def exponent (cs : List Char) : List Char × List Char :=
  let digits (mark : List Char) (rest : List Char) : List Char × List Char :=
    if rest.head?.any Char.isDigit then
      (mark ++ rest.takeWhile Char.isDigit, rest.dropWhile Char.isDigit)
    else ([], cs)
  match cs with
  | e :: rest =>
    if e = 'e' ∨ e = 'E' then
      match rest with
      | '+' :: rest => digits [e, '+'] rest
      | '-' :: rest => digits [e, '-'] rest
      | rest => digits [e] rest
    else ([], cs)
  | [] => ([], cs)

def fraction : List Char → Option (List Char) × List Char
  | '.' :: rest => (some (rest.takeWhile Char.isDigit), rest.dropWhile Char.isDigit)
  | cs => (none, cs)

def orZero (digits : List Char) : List Char :=
  if digits.isEmpty then ['0'] else digits

/-- A number in decimal digits, without sign. On one side of the point the digits may be missing. -/
def decimal? (cs : List Char) : Option (Scalar × List Char) :=
  let whole := cs.takeWhile Char.isDigit
  let (places, rest) := fraction (cs.dropWhile Char.isDigit)
  let (power, rest) := exponent rest
  if whole.head? = some '0' && 1 < whole.length then none
  else if whole.isEmpty && (places.getD []).isEmpty then none
  else
    let pointed := match places with
      | some digits => '.' :: orZero digits
      | none => []
    some (.ofText (orZero whole ++ pointed ++ power), rest)

def unsigned? (cs : List Char) : Option (Scalar × List Char) :=
  hexadecimal? cs <|> decimal? cs

def signed? (cs : List Char) : Option (Scalar × List Char) :=
  match word? cs with
  | some (word, rest) => if word.text = "9e999".toList then some (word, rest) else none
  | none => unsigned? cs

def scalar? : List Char → Option (Scalar × List Char)
  | '+' :: rest => signed? rest
  | '-' :: rest => (signed? rest).map fun (n, rest) => ({ n with text := '-' :: n.text }, rest)
  | cs => word? cs <|> unsigned? cs

mutual

/-- The value that comes next, and the text after it. Every character is worth at most two `steps`,
and there is `room` for so many levels of arrays and objects. -/
def value : (steps room : Nat) → List Char → Option (Value × List Char)
  | 0, _, _ => none
  | steps + 1, room, cs =>
    match skipBlanks cs, room with
    | '[' :: _, 0 => none
    | '[' :: rest, room + 1 => (items steps room rest).map fun (vs, rest) => (.array vs, rest)
    | '\x7b' :: _, 0 => none
    | '\x7b' :: rest, room + 1 =>
      (members steps room rest).map fun (ms, rest) => (.object ms, rest)
    | '"' :: rest, _ => (stringBody '"' rest).map fun (body, rest) => (.string body, rest)
    | '\'' :: rest, _ => (stringBody '\'' rest).map fun (body, rest) => (.string body, rest)
    | cs, _ => (scalar? cs).map fun (s, rest) => (.scalar s, rest)

/-- The items of an array up to its closing bracket. A comma may follow the last one. -/
def items : (steps room : Nat) → List Char → Option (List Value × List Char)
  | 0, _, _ => none
  | steps + 1, room, cs =>
    match skipBlanks cs with
    | ']' :: rest => some ([], rest)
    | cs =>
      match value steps room cs with
      | none => none
      | some (v, rest) =>
        match skipBlanks rest with
        | ']' :: rest => some ([v], rest)
        | ',' :: rest => (items steps room rest).map fun (vs, rest) => (v :: vs, rest)
        | _ => none

/-- The members of an object up to its closing brace. A comma may follow the last one. -/
def members : (steps room : Nat) → List Char → Option (List (List Glyph × Value) × List Char)
  | 0, _, _ => none
  | steps + 1, room, cs =>
    match skipBlanks cs with
    | '\x7d' :: rest => some ([], rest)
    | cs =>
      match name? cs with
      | none => none
      | some (name, rest) =>
        match skipBlanks rest with
        | ':' :: rest =>
          match value steps room rest with
          | none => none
          | some (v, rest) =>
            match skipBlanks rest with
            | '\x7d' :: rest => some ([(name, v)], rest)
            | ',' :: rest =>
              (members steps room rest).map fun (ms, rest) => ((name, v) :: ms, rest)
            | _ => none
        | _ => none

end

def deepest : Nat := 1000

def read? (text : String) : Option Value :=
  let cs := text.toList.takeWhile (· != '\x00')
  match value (2 * cs.length + 2) deepest cs with
  | some (v, rest) => if (skipBlanks rest).isEmpty then some v else none
  | none => none

end Herald.Json.Relaxed
