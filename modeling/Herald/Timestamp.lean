import Herald.Text.Blank

/-!
Points in time of the UTC calendar, down to the nanosecond and with leap seconds. A text names one
with a date, a time of day and an offset from UTC; the offset is taken off when it is read.
-/

namespace Herald

structure Date where
  year : Int
  month : Nat
  day : Nat
deriving DecidableEq, Repr

namespace Date

def isLeap (year : Int) : Bool :=
  year % 4 == 0 && (year % 100 != 0 || year % 400 == 0)

def daysIn (year : Int) (month : Nat) : Nat :=
  if month = 2 then if isLeap year then 29 else 28
  else if month = 4 ∨ month = 6 ∨ month = 9 ∨ month = 11 then 30
  else 31

def inRange (year : Int) : Bool :=
  -262143 ≤ year && year ≤ 262142

def isValid (d : Date) : Bool :=
  inRange d.year && 1 ≤ d.month && d.month ≤ 12 && 1 ≤ d.day && d.day ≤ daysIn d.year d.month

def next (d : Date) : Date :=
  if d.day < daysIn d.year d.month then { d with day := d.day + 1 }
  else if d.month < 12 then ⟨d.year, d.month + 1, 1⟩
  else ⟨d.year + 1, 1, 1⟩

def previous (d : Date) : Date :=
  if 1 < d.day then { d with day := d.day - 1 }
  else if 1 < d.month then ⟨d.year, d.month - 1, daysIn d.year (d.month - 1)⟩
  else ⟨d.year - 1, 12, 31⟩

/-- The day so many days after the first of January 1970. Years are counted from March, so that a
leap day is the last of its year, and in cycles of 400, which all have the same length. -/
def ofDays (days : Nat) : Date :=
  let z := days + 719468
  let dayOfCycle := z % 146097
  let year := (dayOfCycle - dayOfCycle / 1460 + dayOfCycle / 36524 - dayOfCycle / 146096) / 365
  let dayOfYear := dayOfCycle - (365 * year + year / 4 - year / 100)
  let monthFromMarch := (5 * dayOfYear + 2) / 153
  let month := if monthFromMarch < 10 then monthFromMarch + 3 else monthFromMarch - 9
  let day := dayOfYear - (153 * monthFromMarch + 2) / 5 + 1
  ⟨year + 400 * (z / 146097) + if month ≤ 2 then 1 else 0, month, day⟩

end Date

/-- A point in time. The second may be 60, in a minute with a leap second. -/
structure Timestamp where
  date : Date
  hour : Nat
  minute : Nat
  second : Nat
  nanosecond : Nat
deriving DecidableEq, Repr

namespace Timestamp

def isValid (t : Timestamp) : Bool :=
  t.date.isValid && t.hour < 24 && t.minute < 60 && t.second ≤ 60 && t.nanosecond < 1000000000

/-- The same time of day some minutes earlier, or later for a negative number; less than a day. -/
def earlier (t : Timestamp) (minutes : Int) : Timestamp :=
  let total : Int := 60 * t.hour + t.minute - minutes
  let (date, total) :=
    if total < 0 then (t.date.previous, total + 1440)
    else if 1440 ≤ total then (t.date.next, total - 1440)
    else (t.date, total)
  { t with date, hour := (total / 60).toNat, minute := (total % 60).toNat }

/-- The point in time so many seconds after the beginning of 1970, leap seconds not counted. -/
def ofSeconds (seconds : Nat) : Timestamp :=
  ⟨Date.ofDays (seconds / 86400), seconds / 3600 % 24, seconds / 60 % 60, seconds % 60, 0⟩

def padded (width n : Nat) : List Char :=
  let digits := Nat.toDigits 10 n
  List.replicate (width - digits.length) '0' ++ digits

/-- Four digits for a year; one beyond them has a sign. -/
def yearText (year : Int) : List Char :=
  if 0 ≤ year ∧ year ≤ 9999 then padded 4 year.toNat
  else (if year < 0 then '-' else '+') :: padded 4 year.natAbs

def fractionText (nanosecond : Nat) : List Char :=
  if nanosecond = 0 then []
  else if nanosecond % 1000000 = 0 then '.' :: padded 3 (nanosecond / 1000000)
  else if nanosecond % 1000 = 0 then '.' :: padded 6 (nanosecond / 1000)
  else '.' :: padded 9 nanosecond

/-- The written form, as `2024-01-02T03:04:05Z`. -/
def characters (t : Timestamp) : List Char :=
  yearText t.date.year ++ '-' :: padded 2 t.date.month ++ '-' :: padded 2 t.date.day ++
    'T' :: padded 2 t.hour ++ ':' :: padded 2 t.minute ++ ':' :: padded 2 t.second ++
    fractionText t.nanosecond ++ ['Z']

/-- The written form, as `2024-01-02T03:04:05Z`. -/
def text (t : Timestamp) : String :=
  String.ofList t.characters

namespace Fields

def numberOf (digits : List Char) : Nat :=
  digits.foldl (fun n c => 10 * n + (c.toNat - '0'.toNat)) 0

/-- The number at the beginning: at least one digit, and at most `width`. -/
def number (width : Nat) (s : List Char) : Option (Nat × List Char) :=
  let digits := (s.take width).takeWhile Char.isDigit
  if digits.isEmpty then none else some (numberOf digits, s.drop digits.length)

def field (s : List Char) : Option (Nat × List Char) :=
  number 2 (Text.skipBlanks s)

/-- A year, after blanks: up to four digits, or a sign and any number of them. -/
def year (s : List Char) : Option (Int × List Char) :=
  match Text.skipBlanks s with
  | '-' :: s => do
    let (n, rest) ← number s.length s
    some (-n, rest)
  | '+' :: s => do
    let (n, rest) ← number s.length s
    some (n, rest)
  | s => do
    let (n, rest) ← number 4 s
    some (n, rest)

def separator (c : Char) (s : List Char) : Option (List Char) :=
  match Text.skipBlanks s with
  | d :: rest => if d = c then some rest else none
  | [] => none

/-- The nanoseconds after a point, if there is one; digits past the ninth do not count. -/
def fraction : List Char → Option (Nat × List Char)
  | '.' :: s => do
    let digits := (s.take 9).takeWhile Char.isDigit
    if digits.isEmpty then none
    else
      some (numberOf digits * Nat.pow 10 (9 - digits.length),
        (s.drop digits.length).dropWhile Char.isDigit)
  | s => some (0, s)

/-- The minutes of an offset after its sign: two digits for the hours, two for the minutes, and
colons or blanks between them. -/
def offsetMinutes (s : List Char) : Option (Nat × List Char) :=
  match s with
  | h1 :: h2 :: s =>
    if h1.isDigit && h2.isDigit then
      match s.dropWhile fun c => c == ':' || Text.isBlank c with
      | m1 :: m2 :: rest =>
        if '0' ≤ m1 && m1 ≤ '5' && m2.isDigit then
          some (60 * numberOf [h1, h2] + numberOf [m1, m2], rest)
        else none
      | _ => none
    else none
  | _ => none

/-- The minutes by which the local time is ahead of UTC. -/
def offset (s : List Char) : Option (Int × List Char) :=
  match s with
  | 'Z' :: rest => some (0, rest)
  | 'z' :: rest => some (0, rest)
  | '+' :: rest => do
    let (minutes, rest) ← offsetMinutes rest
    some (minutes, rest)
  | sign :: rest =>
    if sign = '-' ∨ sign = '\u2212' then do
      let (minutes, rest) ← offsetMinutes rest
      some (-minutes, rest)
    else if (sign :: rest.take 2).map Char.toUpper = ['U', 'T', 'C'] then some (0, rest.drop 2)
    else none
  | [] => none

/-- The separator between date and time: a letter of either case or one space. -/
def afterDate : List Char → Option (List Char)
  | c :: rest => if c = 'T' ∨ c = 't' ∨ c = ' ' then some rest else none
  | [] => none

end Fields

open Fields in
def parseList (s : List Char) : Option Timestamp := do
  let (year, s) ← year s
  let (month, s) ← field (← separator '-' s)
  let (day, s) ← field (← separator '-' s)
  let (hour, s) ← field (← afterDate s)
  let (minute, s) ← field (← separator ':' s)
  let (second, s) ← field (← separator ':' s)
  let (nanosecond, s) ← fraction s
  let (minutes, s) ← offset (Text.skipBlanks s)
  let localTime : Timestamp := ⟨⟨year, month, day⟩, hour, minute, second, nanosecond⟩
  let t := localTime.earlier minutes
  if (Text.skipBlanks s).isEmpty && localTime.isValid && minutes.natAbs < 1440 && t.isValid then some t else none

def parse (s : String) : Option Timestamp :=
  parseList s.toList

end Timestamp

end Herald
