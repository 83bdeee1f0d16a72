import Herald.Duration
import Herald.Log
import Herald.Notification

/-!
The course of a delivery on a clock that counts milliseconds. Work takes no time; only waiting does.
Others act only while the delivery waits: whoever calls it off from outside, and the observers of its
tokens. So at an instant at which the delivery can go on by itself, it goes on first, and a
cancellation at this same instant takes effect when the delivery next waits. Whoever waits may be cut
off by the deadline of a push around it: then the clock stands at the deadline.
-/

namespace Herald

/-- A cancellation token: the numbers under which it and the tokens above it were issued, its own
first. -/
structure Token where
  path : List Nat
deriving DecidableEq, Repr

/-- The token of a delivery that no server makes. -/
def Token.delivery : Token :=
  ⟨[0]⟩

/-- The token below which a server issues those of its requests. -/
def Token.requests : Token :=
  ⟨[1]⟩

/-- True if cancelling `ancestor` cancels the token. -/
def Token.isBelow (t ancestor : Token) : Bool :=
  ancestor.path.isSuffixOf t.path

inductive Sighting where
  /-- A scripted endpoint was given a notification. -/
  | pushed (transport : String) (instant : Nat) (notification : Notification)
  /-- A token under observation was cancelled. -/
  | tokenCancelled (instant : Nat)
  /-- A writer put out a line. -/
  | wrote (transport line : String)

inductive Fate where
  /-- The delivery was called off before. -/
  | calledOff
  /-- The recipient does not want to be notified over this transport. -/
  | declined
  /-- The transport is given the notification. -/
  | given
deriving DecidableEq, Repr

/-- The turn of a transport in the dispatch of a notification. -/
structure Turn where
  notification : Notification
  transport : String
  fate : Fate

/-- The course of a delivery so far, and what is known of its future: when it will be called off. -/
structure Timeline where
  now : Nat
  cancelled : List Token
  /-- The token of the delivery, which can be cancelled from outside. -/
  root : Token
  /-- The instant at which this is going to happen. -/
  due : Option Nat
  issued : Nat
  observed : List Token
  /-- The pauses between attempts that were asked for. -/
  pauses : List Duration
  /-- The turns that transports have had. -/
  turns : List Turn
  sightings : List Sighting
  log : Log

inductive Pause where
  | elapsed
  | cancelled
  | cut
deriving DecidableEq, Repr

namespace Timeline

def start (due : Option Nat) (root : Token := .delivery) : Timeline where
  now := 0
  cancelled := []
  root
  due
  issued := 0
  observed := []
  pauses := []
  turns := []
  sightings := []
  log := []

def report (tl : Timeline) (level : Log.Level) (message : String)
    (details : List (String × String)) : Timeline :=
  { tl with log := tl.log ++ [⟨level, message, details⟩] }

def hear {α : Type} (tl : Timeline) (x : Logged α) : Timeline :=
  { tl with log := tl.log ++ x.log }

def see (tl : Timeline) (s : Sighting) : Timeline :=
  { tl with sightings := tl.sightings ++ [s] }

def note (tl : Timeline) (turn : Turn) : Timeline :=
  { tl with turns := tl.turns ++ [turn] }

def isCancelled (tl : Timeline) (t : Token) : Bool :=
  tl.cancelled.any t.isBelow

def cancel (tl : Timeline) (t : Token) : Timeline :=
  { tl with cancelled := t :: tl.cancelled }

def issue (tl : Timeline) (parent : Token) : Token × Timeline :=
  (⟨tl.issued :: parent.path⟩, { tl with issued := tl.issued + 1 })

def observe (tl : Timeline) (t : Token) : Timeline :=
  { tl with observed := tl.observed ++ [t] }

def notice (tl : Timeline) : Timeline :=
  let (seen, waiting) := tl.observed.partition tl.isCancelled
  { tl with
    observed := waiting
    sightings := tl.sightings ++ seen.map fun _ => .tokenCancelled tl.now }

/-- Others have their turn: the delivery is called off if that is due, and observers notice it. -/
def settle (tl : Timeline) : Timeline :=
  match tl.due with
  | some instant =>
    if instant ≤ tl.now then ({ tl with due := none }.cancel tl.root).notice else tl.notice
  | none => tl.notice

/-- Others have their turn now, and again at a later instant. -/
def settleAt (tl : Timeline) (instant : Nat) : Timeline :=
  { tl.settle with now := max tl.now instant }.settle

/-- Waits until a later instant, at which the delivery goes on first. -/
def advance (tl : Timeline) (instant : Nat) : Timeline :=
  if instant ≤ tl.now then tl
  else
    let tl := tl.settle
    match tl.due with
    | some due => { (if due < instant then tl.settleAt due else tl) with now := instant }
    | none => { tl with now := instant }

def earliest (instant : Nat) : Option Nat → Nat
  | some d => min instant d
  | none => instant

def cutsBefore (deadline : Option Nat) (instant : Nat) : Bool :=
  match deadline with
  | some d => d < instant
  | none => false

/-- The instant at which a token, not cancelled yet, is going to be cancelled from outside while the
delivery waits; if the wait has an end, it comes later. -/
def calledOff? (tl : Timeline) (token : Token) (waitEnd : Option Nat) : Option Nat :=
  if token.isBelow tl.root then
    (tl.due.map (max tl.now)).filter fun instant =>
      match waitEnd with
      | some finish => instant < finish
      | none => true
  else none

/-- Waits for a number of milliseconds, whatever is cancelled. False if the deadline falls first. -/
def sleep (tl : Timeline) (ticks : Nat) (deadline : Option Nat) : Bool × Timeline :=
  let finish := tl.now + ticks
  (!cutsBefore deadline finish, tl.advance (earliest finish deadline))

def rest (tl : Timeline) (ticks : Nat) (token : Token) (deadline : Option Nat) :
    Pause × Timeline :=
  if tl.isCancelled token then (.cancelled, tl)
  else
    match tl.calledOff? token (some (earliest (tl.now + ticks) deadline)) with
    | some instant => (.cancelled, tl.settleAt instant)
    | none =>
      let (elapsed, tl) := tl.sleep ticks deadline
      (if elapsed then .elapsed else .cut, tl)

def pause (tl : Timeline) (length : Duration) (token : Token) (deadline : Option Nat) :
    Pause × Timeline :=
  { tl with pauses := tl.pauses ++ [length] }.rest length.ticks token deadline

/-- Waits until the token is cancelled. False if the deadline falls first, or if neither happens
ever. -/
def awaitCancellation (tl : Timeline) (token : Token) (deadline : Option Nat) : Bool × Timeline :=
  if tl.isCancelled token then (true, tl)
  else
    match tl.calledOff? token deadline, deadline with
    | some instant, _ => (true, tl.settleAt instant)
    | none, some d => (false, tl.advance d)
    | none, none => (false, tl.settle)

end Timeline

end Herald
