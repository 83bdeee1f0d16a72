import Herald.Preference.Provider
import Herald.Transport.Basic

/-!
Dispatch. A notification is offered to every transport in turn, unless its recipient does not want it
there. A transport that fails keeps no later one from its turn; all failures are reported together.
-/

namespace Herald

inductive Offer where
  | calledOff
  | declined
  | pushed (result : Except PushError Unit)

namespace Offer

def isPushed : Offer → Bool
  | .pushed _ => true
  | _ => false

def failure? : Offer → Option PushError
  | .calledOff => some .cancelled
  | .pushed (.error e) => some e
  | _ => none

end Offer

structure DispatchError where
  failures : List (String × PushError)
deriving DecidableEq, Repr

namespace DispatchError

def message (e : DispatchError) : String :=
  "\n".intercalate (e.failures.map fun (key, e) => s!"{key}: {e.text}")

def hasPermanent (e : DispatchError) : Bool :=
  e.failures.any fun (_, e) => e.permanent

end DispatchError

structure Notifier where
  transports : List Transport
  preferences : Provider

namespace Notifier

def offer (preferences : Provider) (n : Notification) (token : Token) : Course Transport Offer
  | (t, tl) =>
    if tl.isCancelled token then (some .calledOff, t, tl.note ⟨n, t.key, .calledOff⟩)
    else
      let opinion := preferences.wants n t.key
      let tl := (if preferences.waits n t.key then tl.settle else tl).hear opinion
      if opinion.value = some false then
        (some .declined, t, (tl.note ⟨n, t.key, .declined⟩).report .debug "Recipient opted out"
          [("transport", t.key), ("to", n.recipient.text)])
      else
        match Transport.push n token (t, tl.note ⟨n, t.key, .given⟩) with
        | (some result, t, tl) => (some (.pushed result), t, tl)
        | (none, t, tl) => (none, t, tl)

/-- Offers a notification to one transport after another. A transport that waits for ever leaves those
after it without a turn. -/
def offers (preferences : Provider) (n : Notification) (token : Token) :
    List Transport → Timeline → Option (List (String × Offer)) × List Transport × Timeline
  | [], tl => (some [], [], tl)
  | t :: rest, tl =>
    match offer preferences n token (t, tl) with
    | (none, t, tl) => (none, t :: rest, tl)
    | (some first, t, tl) =>
      let (others, rest, tl) := offers preferences n token rest tl
      (others.map ((t.key, first) :: ·), t :: rest, tl)

def failures (offers : List (String × Offer)) : List (String × PushError) :=
  offers.filterMap fun (key, o) => o.failure?.map (key, ·)

/-- The result of a dispatch: delivered, unless there are failures. -/
def outcome (offers : List (String × Offer)) : Except DispatchError Unit :=
  if (failures offers).isEmpty then .ok () else .error ⟨failures offers⟩

def push (n : Notification) (token : Token) : Course Notifier (Except DispatchError Unit)
  | (notifier, tl) =>
    match offers notifier.preferences n token notifier.transports tl with
    | (none, transports, tl) => (none, { notifier with transports }, tl)
    | (some made, transports, tl) =>
      let idle := !(made.any fun o => o.2.isPushed) && (failures made).isEmpty
      let tl := if idle then
          tl.report .warn "No transport attempted delivery" [("to", n.recipient.text)]
        else tl
      (some (outcome made), { notifier with transports }, tl)

end Notifier

end Herald
