import Herald.Text.Visibility

/-!
Quoted text, as it stands in messages: double quotes around it, a backslash before what would end or
bend it, and the code point in place of a character that could not be seen.
-/

namespace Herald.Text

/-- The lower-case hexadecimal digits of `n`, without leading zeros. -/
def hexDigits (n : Nat) : String :=
  String.ofList (Nat.toDigits 16 n)

def quoteChar (c : Char) : String :=
  match c with
  | '\x00' => "\\0"
  | '\t' => "\\t"
  | '\r' => "\\r"
  | '\n' => "\\n"
  | '"' => "\\\""
  | '\\' => "\\\\"
  | _ => if isInvisible c then "\\u\x7b" ++ hexDigits c.toNat ++ "\x7d" else c.toString

def quote (s : String) : String :=
  "\"" ++ String.join (s.toList.map quoteChar) ++ "\""

end Herald.Text
