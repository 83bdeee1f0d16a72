import Herald.Transport.Backoff
import Herald.Transport.Error
import Herald.Transport.Timeline

/-!
Trying again. An operation is repeated after transient failures, with a pause in between, until it
succeeds, fails for good, has had its attempts or is called off.
-/

namespace Herald

inductive Retried (α : Type) where
  | success (a : α)
  | exhausted (last : PushError) (attempts : Nat)
  | permanent (e : PushError)

namespace Retried

variable {α : Type}

def result : Retried α → Except PushError α
  | .success a => .ok a
  | .exhausted last _ => .error last
  | .permanent e => .error e

def isSuccess : Retried α → Bool
  | .success _ => true
  | _ => false

end Retried

/-- Work on a state that takes its time. It has no result if a deadline cuts it off. -/
abbrev Course (σ α : Type) : Type :=
  σ × Timeline → Option α × σ × Timeline

namespace RetryPolicy

variable {σ α : Type}

def reportRetry (p : RetryPolicy) (transport : String) (attempt : Nat) (e : PushError)
    (tl : Timeline) : Timeline :=
  tl.report .warn "Push failed, retrying"
    [("transport", transport), ("attempt", toString attempt),
      ("max_attempts", toString (max 1 p.tries)),
      ("delay_ms", toString ((p.backoff.delay (attempt - 1)).milliseconds % Nat.pow 2 64)),
      ("error", e.text)]

def attempts (p : RetryPolicy) (transport : String) (token : Token) (deadline : Option Nat)
    (operation : Course σ (Except PushError α)) : (left made : Nat) → Course σ (Retried α)
  | left, made, (s, tl) =>
    if tl.isCancelled token then (some (.exhausted .cancelled made), s, tl)
    else
      match operation (s, tl) with
      | (none, s, tl) => (none, s, tl)
      | (some (.ok a), s, tl) => (some (.success a), s, tl)
      | (some (.error e), s, tl) =>
        if e.permanent then (some (.permanent e), s, tl)
        else
          match left with
          | 0 => (some (.exhausted e (made + 1)), s, tl)
          | left + 1 =>
            let tl := p.reportRetry transport (made + 1) e tl
            match tl.pause (p.backoff.delay made) token deadline with
            | (.cancelled, tl) => (some (.exhausted e (made + 1)), s, tl)
            | (.cut, tl) => (none, s, tl)
            | (.elapsed, tl) =>
              attempts p transport token deadline operation left (made + 1) (s, tl)

/-- Repeats an operation as the policy says; at least one attempt is made unless it is called off
before. -/
def run (p : RetryPolicy) (transport : String) (token : Token) (deadline : Option Nat)
    (operation : Course σ (Except PushError α)) : Course σ (Retried α) :=
  p.attempts transport token deadline operation (max 1 p.tries - 1) 0

end RetryPolicy

end Herald
