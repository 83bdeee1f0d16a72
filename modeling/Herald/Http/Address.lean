/-!
Addresses on which a server listens: an address of four or sixteen bytes and a port, as
`127.0.0.1:80` or `[::1]:80`.
-/

namespace Herald.Http

inductive Host where
  | v4 (a b c d : Nat)
  /-- Eight groups of sixteen bits, and the number of the link that the address belongs to, if it is
  not zero. -/
  | v6 (groups : List Nat) (link : Nat)
deriving DecidableEq, Repr

structure Address where
  host : Host
  port : Nat
deriving DecidableEq, Repr

namespace Address

def anyHost (port : Nat) : Address :=
  ⟨.v4 0 0 0 0, port⟩

def spelled (base cap : Nat) (digits : List Char) (value : Char → Option Nat) : Option Nat := do
  let n ← digits.foldlM (fun n c => return n * base + (← value c)) 0
  if n ≤ cap then some n else none

def decimal? (c : Char) : Option Nat :=
  if c.isDigit then some (c.toNat - 48) else none

def hexadecimal? (c : Char) : Option Nat :=
  if c.isDigit then some (c.toNat - 48)
  else if 'a' ≤ c ∧ c ≤ 'f' then some (c.toNat - 87)
  else if 'A' ≤ c ∧ c ≤ 'F' then some (c.toNat - 55)
  else none

def number (cap : Nat) (s : List Char) : Option (Nat × List Char) := do
  let digits := s.takeWhile Char.isDigit
  if digits.isEmpty then none
  else some (← spelled 10 cap digits decimal?, s.drop digits.length)

/-- One of the four numbers of a short address: at most three digits, and no zero before others. -/
def byte (s : List Char) : Option (Nat × List Char) := do
  let digits := s.takeWhile Char.isDigit
  if digits.isEmpty || 3 < digits.length || (digits.head? == some '0' && 1 < digits.length) then none
  else some (← spelled 10 255 digits decimal?, s.drop digits.length)

/-- One group of a long address: up to four hexadecimal digits. -/
def group (s : List Char) : Option (Nat × List Char) := do
  let digits := s.takeWhile fun c => (hexadecimal? c).isSome
  if digits.isEmpty || 4 < digits.length then none
  else some (← spelled 16 0xffff digits hexadecimal?, s.drop digits.length)

def after (c : Char) : List Char → Option (List Char)
  | d :: rest => if d = c then some rest else none
  | [] => none

def v4 (s : List Char) : Option ((Nat × Nat × Nat × Nat) × List Char) := do
  let (a, s) ← byte s
  let (b, s) ← byte (← after '.' s)
  let (c, s) ← byte (← after '.' s)
  let (d, s) ← byte (← after '.' s)
  some ((a, b, c, d), s)

/-- What stands after the colon before a group; none stands before the first. -/
def beforeGroup (isFirst : Bool) (s : List Char) : Option (List Char) :=
  if isFirst then some s else after ':' s

/-- Up to `limit` groups with colons between them, of which the last two may be written as a short
address; true if they are. -/
def groups (isFirst : Bool) : (limit : Nat) → List Char → List Nat × Bool × List Char
  | 0, s => ([], false, s)
  | limit + 1, s =>
    match (beforeGroup isFirst s).bind v4 with
    | some ((a, b, c, d), rest) =>
      if limit = 0 then one limit s else ([a * 256 + b, c * 256 + d], true, rest)
    | none => one limit s
where
  one (limit : Nat) (s : List Char) : List Nat × Bool × List Char :=
    match (beforeGroup isFirst s).bind group with
    | some (g, rest) =>
      let (more, short, rest) := groups false limit rest
      (g :: more, short, rest)
    | none => ([], false, s)

/-- A long address. Two colons stand for as many groups of zero as are missing, and at least for
one. -/
def v6 (s : List Char) : Option (List Nat × List Char) := do
  let (head, short, s) := groups true 8 s
  if head.length = 8 then some (head, s)
  else if short then none
  else
    let s ← after ':' (← after ':' s)
    let (tail, _, s) := groups true (7 - head.length) s
    some (head ++ List.replicate (8 - head.length - tail.length) 0 ++ tail, s)

/-- The number of the link after a percent sign; zero where there is none. -/
def link (s : List Char) : Option (Nat × List Char) :=
  match s with
  | '%' :: s => number (Nat.pow 2 32 - 1) s
  | s => some (0, s)

def finish (host : Host) (s : List Char) : Option Address := do
  let (port, s) ← number 65535 (← after ':' s)
  if s.isEmpty then some ⟨host, port⟩ else none

def parse (s : String) : Option Address :=
  match s.toList with
  | '[' :: s => do
    let (groups, s) ← v6 s
    let (link, s) ← link s
    finish (.v6 groups link) (← after ']' s)
  | s => do
    let ((a, b, c, d), s) ← v4 s
    finish (.v4 a b c d) s

def v4Text (a b c d : Nat) : String :=
  s!"{a}.{b}.{c}.{d}"

def groupsText (groups : List Nat) : String :=
  ":".intercalate (groups.map fun g => String.ofList (Nat.toDigits 16 g))

/-- The longest run of zeros, the first of several: where it starts, and its length. -/
def longestZeros (groups : List Nat) : Nat × Nat :=
  (List.range groups.length).foldl (fun best start =>
    let length := ((groups.drop start).takeWhile (· == 0)).length
    if best.2 < length then (start, length) else best) (0, 0)

def v6Text (groups : List Nat) : String :=
  match groups with
  | [0, 0, 0, 0, 0, 0xffff, high, low] =>
    "::ffff:" ++ v4Text (high / 256) (high % 256) (low / 256) (low % 256)
  | _ =>
    let (start, length) := longestZeros groups
    if 1 < length then
      groupsText (groups.take start) ++ "::" ++ groupsText (groups.drop (start + length))
    else groupsText groups

def text (a : Address) : String :=
  match a.host with
  | .v4 x y z w => s!"{v4Text x y z w}:{a.port}"
  | .v6 groups 0 => s!"[{v6Text groups}]:{a.port}"
  | .v6 groups link => s!"[{v6Text groups}%{link}]:{a.port}"

end Address

end Herald.Http
