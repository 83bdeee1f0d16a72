import Herald.Json.Basic

/-!
Numbers as they are written in JSON, and the values they stand for. Integers of 64 bits are exact.
For any other numeral as many digits are kept as fit into 64 bits, and the power of ten is then
applied in binary arithmetic.
-/

namespace Herald.Json

/-- A number as written: a sign, digits, and perhaps a fraction and an exponent. -/
structure Numeral where
  negative : Bool
  whole : List Char
  fraction : Option (List Char)
  /-- The exponent, if there is one: whether it is negative, and its digits. -/
  exponent : Option (Bool × List Char)
deriving DecidableEq, Repr

namespace Numeral

def digitValue (c : Char) : Nat :=
  c.toNat - '0'.toNat

def takeDigits (limit : Nat) : (n : Nat) → List Char → Nat × Nat
  | n, [] => (n, 0)
  | n, c :: rest =>
    let next := 10 * n + digitValue c
    if next < limit then
      let (total, taken) := takeDigits limit next rest
      (total, taken + 1)
    else (n, 0)

def powerOfTen (k : Nat) : Float :=
  Float.ofScientific 1 false k

/-- `significand · 10 ^ k`, or nothing if that is beyond all finite numbers. -/
def scale (significand : Nat) (k : Int) : Option Float :=
  let x := (UInt64.ofNat significand).toFloat
  if significand = 0 then some x
  else if 308 < k then none
  else if 0 ≤ k then
    let scaled := x * powerOfTen k.toNat
    if scaled.isInf then none else some scaled
  else if -308 ≤ k then some (x / powerOfTen (-k).toNat)
  else if -616 ≤ k then some (x / powerOfTen 308 / powerOfTen (-k - 308).toNat)
  else some 0

def signed (negative : Bool) (x : Float) : Float :=
  if negative then -x else x

/-- The value of a numeral read as a binary fraction, unless that is beyond all finite numbers. -/
def toFloat (n : Numeral) : Option Float :=
  let (whole, takenWhole) := takeDigits (Nat.pow 2 64) 0 n.whole
  let (significand, takenFraction) := takeDigits (Nat.pow 2 64) whole (n.fraction.getD [])
  let places : Int := (n.whole.length : Int) - takenWhole - takenFraction
  let magnitude :=
    match n.exponent with
    | none => scale significand places
    | some (negative, digits) =>
      let (exponent, taken) := takeDigits (Nat.pow 2 31) 0 digits
      if taken < digits.length then
        if significand ≠ 0 && !negative then none else some 0
      else scale significand (if negative then places - exponent else places + exponent)
  magnitude.map (signed n.negative)

/-- The value of a numeral. Integers from `-2 ^ 63` to `2 ^ 64 - 1` are exact, but a zero with a minus
sign is a binary fraction. -/
def value? (n : Numeral) : Option Number :=
  let (whole, taken) := takeDigits (Nat.pow 2 64) 0 n.whole
  if n.fraction.isNone && n.exponent.isNone && taken == n.whole.length then
    if !n.negative then some (.int whole)
    else if 0 < whole ∧ whole ≤ Nat.pow 2 63 then some (.int (-whole))
    else some (.real (-(UInt64.ofNat whole).toFloat))
  else n.toFloat.map .real

def ofInt (n : Int) : Numeral :=
  ⟨n < 0, Nat.toDigits 10 n.natAbs, none, none⟩

end Numeral

end Herald.Json
