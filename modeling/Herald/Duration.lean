/-!
Lengths of time to the nanosecond, up to the longest one, which is just short of `2 ^ 64` seconds.
-/

namespace Herald

def Duration.maxNanoseconds : Nat :=
  Nat.pow 2 64 * 1000000000 - 1

@[ext]
structure Duration where
  nanoseconds : Nat
  le_max : nanoseconds ≤ Duration.maxNanoseconds
deriving DecidableEq

namespace Duration

def capped (nanoseconds : Nat) : Duration :=
  ⟨min nanoseconds maxNanoseconds, Nat.min_le_right ..⟩

def zero : Duration :=
  capped 0

def longest : Duration :=
  capped maxNanoseconds

def ofSeconds (n : Nat) : Duration :=
  capped (n * 1000000000)

def ofMilliseconds (n : Nat) : Duration :=
  capped (n * 1000000)

instance : Inhabited Duration := ⟨zero⟩

instance : LE Duration := ⟨fun d e => d.nanoseconds ≤ e.nanoseconds⟩

instance (d e : Duration) : Decidable (d ≤ e) :=
  inferInstanceAs (Decidable (d.nanoseconds ≤ e.nanoseconds))

def shorter (d e : Duration) : Duration :=
  if d ≤ e then d else e

def add (d e : Duration) : Duration :=
  capped (d.nanoseconds + e.nanoseconds)

def seconds (d : Duration) : Nat :=
  d.nanoseconds / 1000000000

/-- The nanoseconds beyond the whole seconds. -/
def subseconds (d : Duration) : Nat :=
  d.nanoseconds % 1000000000

def milliseconds (d : Duration) : Nat :=
  d.nanoseconds / 1000000

def thirtyYears : Nat :=
  30 * 365 * 24 * 60 * 60 * 1000

/-- The milliseconds for which a clock waits: it counts them whole, and where it cannot express the
instant at which the wait would end, because seconds are signed words of 64 bits, it waits for thirty
years. -/
def ticks (d : Duration) : Nat :=
  if d.seconds + 1 < Nat.pow 2 63 then (d.nanoseconds + 999999) / 1000000 else thirtyYears

/-- A count of some unit with decimals: `fraction` out of `10 ^ places`, without zeros at the end. -/
def decimalText (whole fraction places : Nat) : String :=
  let digits := Nat.toDigits 10 fraction
  let padded := List.replicate (places - digits.length) '0' ++ digits
  let kept := (padded.reverse.dropWhile (· == '0')).reverse
  if kept.isEmpty then toString whole else toString whole ++ "." ++ String.ofList kept

/-- The length in the largest unit of which it holds at least one: `1.5s`, `100ms`, `2µs`, `0ns`. -/
def text (d : Duration) : String :=
  let n := d.nanoseconds
  if 1000000000 ≤ n then decimalText d.seconds d.subseconds 9 ++ "s"
  else if 1000000 ≤ n then decimalText (n / 1000000) (n % 1000000) 6 ++ "ms"
  else if 1000 ≤ n then decimalText (n / 1000) (n % 1000) 3 ++ "µs"
  else toString n ++ "ns"

end Duration

end Herald
