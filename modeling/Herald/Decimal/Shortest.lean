/-!
Binary floating point numbers and their shortest decimals: of all decimals that round to a number,
those with the fewest digits, and of these the nearest. All comparisons are made in exact integer
arithmetic on the number's significand and exponent.
-/

namespace Herald.Decimal

/-- A finite binary number: `± significand · 2 ^ exponent`. -/
structure Binary where
  negative : Bool
  significand : Nat
  exponent : Int
  /-- True if the next number towards zero is only half as far away as the next one outwards. -/
  closerBelow : Bool
deriving DecidableEq, Repr

def Binary.ofFloat (x : Float) : Binary :=
  let bits := x.toBits.toNat
  let fraction : Nat := bits % Nat.pow 2 52
  let scale : Nat := bits / Nat.pow 2 52 % Nat.pow 2 11
  let negative := bits / Nat.pow 2 63 == 1
  if scale = 0 then ⟨negative, fraction, -1074, false⟩
  else ⟨negative, Nat.pow 2 52 + fraction, (scale : Int) - 1075, fraction == 0 && scale != 1⟩

/-- A decimal: `± digits · 10 ^ exponent`. -/
structure Number where
  negative : Bool
  digits : Nat
  exponent : Int
deriving DecidableEq, Repr

def quotient (n : Nat) (e k : Int) : Nat × Nat :=
  (n * Nat.pow 2 e.toNat * Nat.pow 10 (-k).toNat, Nat.pow 2 (-e).toNat * Nat.pow 10 k.toNat)

def magnitude (n : Nat) (e : Int) : Int :=
  let (num, den) := quotient n e 0
  if den ≤ num then ((Nat.toDigits 10 (num / den)).length : Int) - 1
  else Int.negOfNat (Nat.toDigits 10 ((den - 1) / num)).length

inductive Tie where
  | outwards
  | toEven
deriving DecidableEq, Repr

/-- True if the decimal next to zero, `below`, is taken for a number halfway to the one after it. -/
def Tie.keeps : Tie → (below : Nat) → Bool
  | outwards, _ => false
  | toEven, below => below % 2 == 0

/-- The multiple of `10 ^ k` that rounds to the number and is nearest to it, if there is one. Only
the two neighbours of the number on that grid come into question. -/
def onGrid (tie : Tie) (b : Binary) (k : Int) : Option Nat :=
  let unit := b.exponent - 2
  let (num, den) := quotient (4 * b.significand) unit k
  let (lowNum, _) := quotient (4 * b.significand - if b.closerBelow then 1 else 2) unit k
  let (highNum, _) := quotient (4 * b.significand + 2) unit k
  let even := b.significand % 2 = 0
  let fits (d : Nat) : Bool :=
    if even then lowNum ≤ d * den && d * den ≤ highNum else lowNum < d * den && d * den < highNum
  let below := num / den
  let twice := 2 * (num - below * den)
  let nearer : Bool := twice < den || (twice = den && tie.keeps below)
  if fits below && (!fits (below + 1) || nearer) then some below
  else if fits (below + 1) then some (below + 1)
  else none

def firstGrid (tie : Tie) (b : Binary) : (steps : Nat) → (k : Int) → Nat × Int
  | 0, k => ((onGrid tie b k).getD 0, k)
  | steps + 1, k =>
    match onGrid tie b k with
    | some d => (d, k)
    | none => firstGrid tie b steps (k - 1)

/-- The shortest decimal of a finite number. Seventeen digits always suffice; the search starts one
grid above the first of them, where the next power of ten stands. -/
def shortest (tie : Tie) (x : Float) : Number :=
  let b := Binary.ofFloat x
  if b.significand = 0 then ⟨b.negative, 0, 0⟩
  else
    let (digits, exponent) := firstGrid tie b 18 (magnitude b.significand b.exponent + 1)
    ⟨b.negative, digits, exponent⟩

/-- The digits with the decimal point at its place and without exponent; no point if none is
needed. -/
def Number.positional (n : Number) : String :=
  let sign := if n.negative then "-" else ""
  let digits := Nat.toDigits 10 n.digits
  let body :=
    if 0 ≤ n.exponent then digits ++ List.replicate n.exponent.toNat '0'
    else
      let places := (-n.exponent).toNat
      let padded := List.replicate (places + 1 - digits.length) '0' ++ digits
      padded.take (padded.length - places) ++ '.' :: padded.drop (padded.length - places)
  sign ++ String.ofList body

def Number.scientific (n : Number) : String :=
  let sign := if n.negative then "-" else ""
  let digits := Nat.toDigits 10 n.digits
  let mantissa := match digits with
    | [] => []
    | [d] => [d]
    | d :: rest => d :: '.' :: rest
  let power := n.exponent + digits.length - 1
  sign ++ String.ofList mantissa ++ (if power < 0 then "e" else "e+") ++ toString power

/-- Positional text of a number; the fewest digits that read back. A number halfway between two
decimals goes outwards. -/
def plainText (x : Float) : String :=
  if x.isNaN then "NaN"
  else if x.isInf then if x < 0 then "-inf" else "inf"
  else (shortest .outwards x).positional

/-- The text of a finite number that always shows a decimal point or an exponent; the exponent
stands where the decimal point would be far from the digits. A number halfway between two decimals
goes to the even one. -/
def compactText (x : Float) : String :=
  let n := shortest .toEven x
  let point : Int := n.exponent + (Nat.toDigits 10 n.digits).length
  if n.digits ≠ 0 && (point ≤ -5 || 16 < point) then n.scientific
  else
    let text := n.positional
    if text.toList.contains '.' then text else text ++ ".0"

end Herald.Decimal
