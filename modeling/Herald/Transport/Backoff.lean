import Herald.Decimal.Shortest
import Herald.Duration

/-!
How long to wait between attempts: always the same, or longer and longer up to a cap. Growing delays
are computed in binary arithmetic and rounded to the nearest nanosecond; one that cannot be
represented counts as the cap.
-/

namespace Herald

def Duration.toFloat (d : Duration) : Float :=
  (UInt64.ofNat d.seconds).toFloat + (UInt64.ofNat d.subseconds).toFloat / 1000000000

/-- The nearest integer to `num / den`; a half goes to the even neighbour. -/
def Duration.roundDiv (num den : Nat) : Nat :=
  let below := num / den
  let twice := 2 * (num % den)
  if twice < den || (twice == den && below % 2 == 0) then below else below + 1

/-- The length of a binary number of seconds, to the nearest nanosecond. There is none below zero or
beyond `2 ^ 64` seconds. -/
def Duration.ofFloat? (x : Float) : Option Duration :=
  if x.isFinite && !(x < 0) then
    let b := Decimal.Binary.ofFloat x
    let num := b.significand * Nat.pow 2 b.exponent.toNat
    let den := Nat.pow 2 (-b.exponent).toNat
    if num < Nat.pow 2 64 * den then some (.capped (roundDiv (num * 1000000000) den)) else none
  else none

inductive Backoff where
  | constant (delay : Duration)
  | exponential (initial cap : Duration) (multiplier : Float)

namespace Backoff

def standard : Backoff :=
  .exponential (.ofSeconds 1) (.ofSeconds 30) 2

/-- `base ^ n` by squaring, for `n` of at most `bits` bits. -/
def power : (bits : Nat) → (base : Float) → (n : Nat) → (product : Float) → Float
  | 0, _, _, product => product
  | bits + 1, base, n, product =>
    let product := if n % 2 = 1 then product * base else product
    if n / 2 = 0 then product else power bits (base * base) (n / 2) product

/-- The factor that counts: a multiplier below one or beyond all finite numbers leaves delays as they
are. -/
def factor (multiplier : Float) : Float :=
  if multiplier.isFinite && 1 ≤ multiplier then multiplier else 1

/-- The delay after the attempt with this number, counted from zero. -/
def delay (b : Backoff) (attempt : Nat) : Duration :=
  match b with
  | .constant d => d
  | .exponential initial cap multiplier =>
    if initial = .zero then .zero
    else
      let grown := initial.toFloat * power 31 (factor multiplier) (min attempt (Nat.pow 2 31 - 1)) 1
      match Duration.ofFloat? grown with
      | some d => d.shorter cap
      | none => cap

inductive Invalid where
  | multiplier (x : Float)
  | initialAboveCap (initial cap : Duration)

def Invalid.message : Invalid → String
  | .multiplier x =>
    s!"backoff multiplier must be finite and at least 1.0, got {Decimal.plainText x}"
  | .initialAboveCap initial cap => s!"initial backoff {initial.text} exceeds the cap {cap.text}"

/-- A growing backoff; the multiplier is checked first. -/
def makeExponential (initial cap : Duration) (multiplier : Float) : Except Invalid Backoff :=
  if !multiplier.isFinite || multiplier < 1 then .error (.multiplier multiplier)
  else if initial ≤ cap then .ok (.exponential initial cap multiplier)
  else .error (.initialAboveCap initial cap)

end Backoff

structure RetryPolicy where
  tries : Nat
  backoff : Backoff

namespace RetryPolicy

def standard : RetryPolicy :=
  ⟨3, .standard⟩

/-- A policy with at least one attempt. -/
def make (tries : Nat) (backoff : Backoff) : RetryPolicy :=
  ⟨max 1 tries, backoff⟩

def delayCount (p : RetryPolicy) : Nat :=
  p.tries - 1

/-- The first delays between attempts, in order; at most `n` of them. -/
def firstDelays (p : RetryPolicy) (n : Nat) : List Duration :=
  (List.range (min n p.delayCount)).map p.backoff.delay

def delays (p : RetryPolicy) : List Duration :=
  (List.range p.delayCount).map p.backoff.delay

@[simp] theorem length_delays (p : RetryPolicy) : p.delays.length = p.delayCount := by
  simp [delays]

theorem firstDelays_eq_take (p : RetryPolicy) (n : Nat) : p.firstDelays n = p.delays.take n := by
  simp [firstDelays, delays, ← List.map_take, List.take_range]

/-- The sum of all delays, or the longest length of time if that is less. Delays that are all the same
need not be added one by one. -/
def totalDelay (p : RetryPolicy) : Duration :=
  match p.backoff with
  | .constant d => Duration.capped (p.delayCount * d.nanoseconds)
  | .exponential .. => p.delays.foldl Duration.add .zero

end RetryPolicy

end Herald
