/-!
Reading UTF-8. Each byte that begins no well-formed sequence is kept as a gap, so that text around it
can still be read; bytes without a gap are well formed.
-/

namespace Herald.Text.Utf8

def continuation (b : UInt8) : Option Nat :=
  if 0x80 ≤ b ∧ b < 0xc0 then some (b.toNat - 0x80) else none

/-- The character of a sequence, if its code point exists and needs a sequence of that length. -/
def scalar (least n : Nat) : Option Char :=
  if least ≤ n ∧ n.isValidChar then some (Char.ofNat n) else none

/-- The character that the bytes begin with, and the number of bytes after the first that it
takes. -/
def first (b : UInt8) (rest : List UInt8) : Option (Char × Nat) :=
  if b < 0x80 then some (Char.ofNat b.toNat, 0)
  else if b < 0xc0 then none
  else if b < 0xe0 then
    match rest with
    | b1 :: _ => do
      let c ← scalar 0x80 ((b.toNat - 0xc0) * 64 + (← continuation b1))
      some (c, 1)
    | _ => none
  else if b < 0xf0 then
    match rest with
    | b1 :: b2 :: _ => do
      let c ← scalar 0x800
        (((b.toNat - 0xe0) * 64 + (← continuation b1)) * 64 + (← continuation b2))
      some (c, 2)
    | _ => none
  else if b < 0xf8 then
    match rest with
    | b1 :: b2 :: b3 :: _ => do
      let c ← scalar 0x10000
        ((((b.toNat - 0xf0) * 64 + (← continuation b1)) * 64 + (← continuation b2)) * 64 +
          (← continuation b3))
      some (c, 3)
    | _ => none
  else none

def decodeAfter (skip : Nat) : List UInt8 → List (Option Char)
  | [] => []
  | b :: rest =>
    match skip with
    | skip + 1 => decodeAfter skip rest
    | 0 =>
      match first b rest with
      | some (c, more) => some c :: decodeAfter more rest
      | none => none :: decodeAfter 0 rest

def decodeWithGaps (bytes : List UInt8) : List (Option Char) :=
  decodeAfter 0 bytes

def decode (bytes : List UInt8) : Option String :=
  ((decodeWithGaps bytes).mapM id).map String.ofList

def encode (s : String) : List UInt8 :=
  s.toUTF8.toList

end Herald.Text.Utf8
