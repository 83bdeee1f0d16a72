import Herald.Text.Hex

/-!
Random ids of events: 122 random bits in the form of version 4, 32 hexadecimal digits in five groups
with dashes between them.
-/

namespace Herald.EventId

def dashes : List Nat := [8, 13, 18, 23]

def grouped (digits : List Char) : List Char :=
  digits.take 8 ++ '-' :: (digits.drop 8).take 4 ++ '-' :: (digits.drop 12).take 4 ++
    '-' :: (digits.drop 16).take 4 ++ '-' :: (digits.drop 20).take 12

def stamped (bytes : List UInt8) : List UInt8 :=
  bytes.zipIdx.map fun (b, i) =>
    if i = 6 then b % 16 + 0x40 else if i = 8 then b % 64 + 0x80 else b

def ofBytes (bytes : List UInt8) : String :=
  String.ofList (grouped (Text.Hex.encodeList (stamped bytes)))

def ofNat (n : Nat) : String :=
  ofBytes ((List.range 16).map fun i => UInt8.ofNat (n / Nat.pow 256 (15 - i)))

def fits (c : Char) (position : Nat) : Bool :=
  if dashes.contains position then c == '-'
  else if position = 14 then c == '4'
  else if position = 19 then c == '8' || c == '9' || c == 'a' || c == 'b'
  else c.isDigit || ('a' ≤ c && c ≤ 'f')

def isRandom (id : String) : Bool :=
  id.length == 36 && id.toList.zipIdx.all fun (c, i) => fits c i

end Herald.EventId
