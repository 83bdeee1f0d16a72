import Herald.Transport.Endpoint

/-!
A transport is an endpoint within layers that try again, set a deadline or report what was delivered.
Key and startup check are those of the endpoint, whatever is around it.
-/

namespace Herald

inductive Layer where
  | retry (policy : RetryPolicy)
  | timeout (limit : Duration)
  | logging (level : Log.Level)

/-- An endpoint and the layers around it, the outermost first. -/
structure Transport where
  layers : List Layer
  endpoint : Endpoint

namespace Transport

def ofEndpoint (endpoint : Endpoint) : Transport :=
  ⟨[], endpoint⟩

def wrap (t : Transport) (layer : Layer) : Transport :=
  { t with layers := layer :: t.layers }

/-- Each layer has the key of what is within. -/
def keyThrough : List Layer → Endpoint → String
  | [], endpoint => endpoint.key
  | .retry _ :: inner, endpoint => keyThrough inner endpoint
  | .timeout _ :: inner, endpoint => keyThrough inner endpoint
  | .logging _ :: inner, endpoint => keyThrough inner endpoint

@[simp] theorem keyThrough_eq (layers : List Layer) (e : Endpoint) : keyThrough layers e = e.key := by
  induction layers with
  | nil => rfl
  | cons layer inner ih => cases layer <;> exact ih

def key (t : Transport) : String :=
  keyThrough t.layers t.endpoint

theorem key_eq (t : Transport) : t.key = t.endpoint.key :=
  keyThrough_eq t.layers t.endpoint

def timedOut (limit : Duration) : PushError :=
  .transient s!"push timed out after {limit.text}"

/-- The end of a push whose deadline fell: its token is cancelled and the failure is reported. -/
def expire (limit : Duration) (transport : String) (child : Token) (tl : Timeline) : Timeline :=
  (tl.cancel child).report .debug "Push timed out"
    [("transport", transport), ("timeout_ms", toString (limit.milliseconds % Nat.pow 2 64))]

def reportDelivery (level : Log.Level) (transport : String) (n : Notification) (tl : Timeline) :
    Timeline :=
  tl.report level (n.render transport)
    [("transport", transport), ("id", n.context.id), ("event_type", n.context.type),
      ("to", n.recipient.text)]

/-- Pushes a notification through the layers to the endpoint. There is no result if the deadline of a
push around this one falls first. -/
def pushThrough (n : Notification) :
    List Layer → Token → Option Nat → Course Endpoint (Except PushError Unit)
  | [], token, deadline, state => Endpoint.push n token deadline state
  | .logging level :: inner, token, deadline, state =>
    match pushThrough n inner token deadline state with
    | (some (.ok ()), endpoint, tl) =>
      (some (.ok ()), endpoint, reportDelivery level (keyThrough inner endpoint) n tl)
    | other => other
  | .timeout limit :: inner, token, deadline, (endpoint, tl) =>
    let (child, tl) := tl.issue token
    let limitEnd := tl.now + limit.ticks
    match pushThrough n inner child (some (Timeline.earliest limitEnd deadline)) (endpoint, tl) with
    | (some result, endpoint, tl) => (some result, endpoint, tl)
    | (none, endpoint, tl) =>
      if Timeline.cutsBefore deadline limitEnd then (none, endpoint, tl)
      else
        (some (.error (timedOut limit)), endpoint,
          expire limit (keyThrough inner endpoint) child tl)
  | .retry policy :: inner, token, deadline, (endpoint, tl) =>
    match policy.run (keyThrough inner endpoint) token deadline (pushThrough n inner token deadline)
      (endpoint, tl) with
    | (some retried, endpoint, tl) => (some retried.result, endpoint, tl)
    | (none, endpoint, tl) => (none, endpoint, tl)

/-- Pushes a notification. There is no result only if the endpoint waits for ever. -/
def push (n : Notification) (token : Token) : Course Transport (Except PushError Unit)
  | (t, tl) =>
    let (result, endpoint, tl) := pushThrough n t.layers token none (t.endpoint, tl)
    (result, { t with endpoint }, tl)

/-- Each layer has a startup check if what is within has one. -/
def hasCheckThrough : List Layer → Endpoint → Bool
  | [], endpoint => endpoint.hasCheck
  | .retry _ :: inner, endpoint => hasCheckThrough inner endpoint
  | .timeout _ :: inner, endpoint => hasCheckThrough inner endpoint
  | .logging _ :: inner, endpoint => hasCheckThrough inner endpoint

@[simp] theorem hasCheckThrough_eq (layers : List Layer) (e : Endpoint) :
    hasCheckThrough layers e = e.hasCheck := by
  induction layers with
  | nil => rfl
  | cons layer inner ih => cases layer <;> exact ih

def hasCheck (t : Transport) : Bool :=
  hasCheckThrough t.layers t.endpoint

theorem hasCheck_eq (t : Transport) : t.hasCheck = t.endpoint.hasCheck :=
  hasCheckThrough_eq t.layers t.endpoint

/-- Each layer has what is within make the check; neither attempts nor deadlines apply to it. -/
def checkThrough (token : Token) : List Layer → Course Endpoint (Except ValidationError Unit)
  | [], state => Endpoint.check token state
  | .retry _ :: inner, state => checkThrough token inner state
  | .timeout _ :: inner, state => checkThrough token inner state
  | .logging _ :: inner, state => checkThrough token inner state

@[simp] theorem checkThrough_eq (token : Token) (layers : List Layer) :
    checkThrough token layers = Endpoint.check token := by
  induction layers with
  | nil => rfl
  | cons layer inner ih => cases layer <;> exact ih

def check (token : Token) : Course Transport (Except ValidationError Unit)
  | (t, tl) =>
    let (result, endpoint, tl) := checkThrough token t.layers (t.endpoint, tl)
    (result, { t with endpoint }, tl)

theorem check_eq (token : Token) (t : Transport) (tl : Timeline) :
    check token (t, tl) = ((Endpoint.check token (t.endpoint, tl)).1,
      { t with endpoint := (Endpoint.check token (t.endpoint, tl)).2.1 },
      (Endpoint.check token (t.endpoint, tl)).2.2) := by
  rw [check, checkThrough_eq]

end Transport

end Herald
