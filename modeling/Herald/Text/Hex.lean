/-!
Bytes written as pairs of hexadecimal digits. Writing uses lower case; reading takes either case and
refuses an odd number of digits and every other character.
-/

namespace Herald.Text.Hex

def digit (n : Nat) : Char :=
  if n < 10 then Char.ofNat (48 + n) else Char.ofNat (87 + n)

def digitValue (c : Char) : Option Nat :=
  if '0' ≤ c ∧ c ≤ '9' then some (c.toNat - 48)
  else if 'a' ≤ c ∧ c ≤ 'f' then some (c.toNat - 87)
  else if 'A' ≤ c ∧ c ≤ 'F' then some (c.toNat - 55)
  else none

def encodeList : List UInt8 → List Char
  | [] => []
  | b :: rest => digit (b.toNat / 16) :: digit (b.toNat % 16) :: encodeList rest

def decodeList : List Char → Option (List UInt8)
  | [] => some []
  | [_] => none
  | high :: low :: rest =>
    match digitValue high, digitValue low, decodeList rest with
    | some h, some l, some bytes => some (UInt8.ofNat (16 * h + l) :: bytes)
    | _, _, _ => none

/-- Writes bytes as lower-case digits. -/
def encode (bytes : List UInt8) : String :=
  String.ofList (encodeList bytes)

def decode (s : String) : Option (List UInt8) :=
  decodeList s.toList

end Herald.Text.Hex
