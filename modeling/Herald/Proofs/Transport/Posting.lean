import Herald.Proofs.Ascending
import Herald.Proofs.Transport.Stack

/-!
Posting to Slack. A push is one request to the channel of the recipient, whatever the options of the
notification say, and the answer decides what comes of it. Whichever layers are around it, the request is
repeated only where the answer leaves hope.
-/

namespace Herald

open Timeline

namespace Slack

/-! ### Answers -/

/-- The message was taken. -/
structure Accepts (status : Http.Status) (text : String) : Prop where
  success : 200 ≤ status.code ∧ status.code < 300
  ok : ∃ error, Json.decodeText Verdict.decoder text = .ok ⟨true, error⟩

/-- The message was not taken, but may be later. -/
inductive Defers (status : Http.Status) (text : String) : Prop
  | tooMany (h : status.code = 429)
  | serverError (h : 500 ≤ status.code ∧ status.code < 600)
  | busy {code : String} (h : 200 ≤ status.code ∧ status.code < 300)
      (hbody : Json.decodeText Verdict.decoder text = .ok ⟨false, some code⟩)
      (hcode : code ∈ transientCodes)

/-- What comes of an answer. All that is neither good nor to be tried again fails for good. -/
structure Settles (status : Http.Status) (text : String) (result : Except PushError Unit) : Prop where
  success_iff : result = .ok () ↔ Accepts status text
  transient_iff : (∃ e, result = .error e ∧ e.permanent = false) ↔ Defers status text
  permanent_iff : (∃ e, result = .error e ∧ e.permanent = true) ↔
    ¬Accepts status text ∧ ¬Defers status text

variable {status : Http.Status} {text : String}

theorem isSuccess_iff : status.isSuccess ↔ 200 ≤ status.code ∧ status.code < 300 := by
  simp [Http.Status.isSuccess]

theorem isServerError_iff : status.isServerError ↔ 500 ≤ status.code ∧ status.code < 600 := by
  simp [Http.Status.isServerError]

theorem Accepts.not_defers (h : Accepts status text) : ¬Defers status text := by
  obtain ⟨hsuccess, error, hbody⟩ := h
  rintro (h | h | ⟨-, hbusy, -⟩)
  · omega
  · omega
  · cases hbody.symm.trans hbusy

theorem settles_ok (h : Accepts status text) : Settles status text (.ok ()) where
  success_iff := iff_of_true rfl h
  transient_iff := iff_of_false (by simp) h.not_defers
  permanent_iff := iff_of_false (by simp) fun hnot => hnot.1 h

theorem settles_transient (h : Defers status text) (message : String) :
    Settles status text (.error (.transient message)) where
  success_iff := iff_of_false nofun fun haccepts => haccepts.not_defers h
  transient_iff := iff_of_true ⟨_, rfl, rfl⟩ h
  permanent_iff := iff_of_false (by simp [PushError.transient]) fun hnot => hnot.2 h

theorem settles_lasting (haccepts : ¬Accepts status text) (hdefers : ¬Defers status text)
    (message : String) : Settles status text (.error (.lasting message)) where
  success_iff := iff_of_false nofun haccepts
  transient_iff := iff_of_false (by simp [PushError.lasting]) hdefers
  permanent_iff := iff_of_true ⟨_, rfl, rfl⟩ ⟨haccepts, hdefers⟩

/-! With a good status only the body counts. -/

theorem accepts_iff_of_success (h : 200 ≤ status.code ∧ status.code < 300) : Accepts status text ↔
    ∃ error, Json.decodeText Verdict.decoder text = .ok ⟨true, error⟩ :=
  ⟨fun haccepts => haccepts.ok, fun hok => ⟨h, hok⟩⟩

theorem defers_iff_of_success (h : 200 ≤ status.code ∧ status.code < 300) : Defers status text ↔
    ∃ code ∈ transientCodes, Json.decodeText Verdict.decoder text = .ok ⟨false, some code⟩ := by
  constructor
  · rintro (htoo | hserver | ⟨-, hbody, hcode⟩)
    · omega
    · omega
    · exact ⟨_, hcode, hbody⟩
  · rintro ⟨code, hcode, hbody⟩
    exact .busy h hbody hcode

theorem settles_judge (method : String) (status : Http.Status) (text : String) :
    Settles status text (judge method status text) := by
  unfold judge
  split
  · rename_i hstatus
    refine settles_transient ?_ _
    obtain htoo | hserver := (Bool.or_eq_true _ _).mp hstatus
    · exact .tooMany (beq_iff_eq.mp htoo)
    · exact .serverError (isServerError_iff.mp hserver)
  · rename_i hstatus
    rw [Bool.or_eq_true, beq_iff_eq, isServerError_iff, not_or] at hstatus
    split
    · rename_i hfailed
      rw [Bool.not_eq_true', ← Bool.not_eq_true, isSuccess_iff] at hfailed
      refine settles_lasting (fun h => hfailed h.success) ?_ _
      rintro (h | h | ⟨h, -, -⟩)
      · exact hstatus.1 h
      · exact hstatus.2 h
      · exact hfailed h
    · rename_i hsuccess
      rw [Bool.not_eq_true', Bool.not_eq_false, isSuccess_iff] at hsuccess
      split
      · rename_i hbody
        refine settles_lasting ?_ ?_ _
        · simp [accepts_iff_of_success hsuccess, hbody]
        · simp [defers_iff_of_success hsuccess, hbody]
      · rename_i error hbody
        exact settles_ok ((accepts_iff_of_success hsuccess).mpr ⟨error, hbody⟩)
      · rename_i code hbody
        split
        · rename_i hcode
          refine settles_transient ((defers_iff_of_success hsuccess).mpr ⟨code, ?_, hbody⟩) _
          exact List.contains_iff_mem.mp hcode
        · rename_i hcode
          refine settles_lasting ?_ ?_ _
          · simp [accepts_iff_of_success hsuccess, hbody]
          · simpa [defers_iff_of_success hsuccess, hbody] using hcode
      · rename_i hbody
        refine settles_lasting ?_ ?_ _
        · simp [accepts_iff_of_success hsuccess, hbody]
        · simp [defers_iff_of_success hsuccess, hbody]

/-! ### Requests -/

/-- The options of a notification, if they are an object. -/
def richOptions (n : Notification) : List (String × Json) :=
  match n.optionsFor key with
  | some (.object members) => members
  | _ => []

/-- The members of a post: the channel, the text, and of the options what has another name; of several
options with one name the last counts. -/
structure Posts (n : Notification) (channel : String) (members : List (String × Json)) : Prop where
  channel : members.lookup "channel" = some (.string channel)
  text : members.lookup "text" = some (.string (n.render key))
  others : ∀ name, name ≠ "channel" → name ≠ "text" →
    members.lookup name = (richOptions n).reverse.lookup name
  nodup : (members.map Prod.fst).Nodup

theorem members_options (n : Notification) :
    ((n.optionsFor key).bind Json.members?).getD [] = richOptions n := by
  unfold richOptions
  cases n.optionsFor key with
  | none => rfl
  | some options => cases options <;> rfl

theorem exists_body (channel : String) (n : Notification) :
    ∃ members, body channel n = .object members ∧ Posts n channel members := by
  refine ⟨_, rfl, ?_, ?_, ?_, Dictionary.nodup_keys _⟩
  · rw [Dictionary.lookup_toList, Dictionary.get?_ofList, List.reverse_append]
    rfl
  · rw [Dictionary.lookup_toList, Dictionary.get?_ofList, List.reverse_append]
    rfl
  · intro name hchannel htext
    rw [Dictionary.lookup_toList, Dictionary.get?_ofList, List.reverse_append, members_options]
    have hown : (name == "channel") = false := beq_false_of_ne hchannel
    have hother : (name == "text") = false := beq_false_of_ne htext
    rw [List.reverse_cons, List.reverse_singleton, List.singleton_append, List.cons_append,
      List.singleton_append, List.lookup_cons, List.lookup_cons, hown, hother]

/-- Options with a channel of their own do not redirect a message. -/
example (c : Context) : body "U1" (((Notification.about c).withMessage "hi").withOptionsFor key
      (.object [("blocks", .array []), ("channel", .string "C9")])) =
    .object [("blocks", .array []), ("channel", .string "U1"), ("text", .string "hi")] := by
  cbv

/-- The service once it has had a request so often, and has replied each time. -/
def Service.after (s : Service) (r : Request) (count : Nat) : Service :=
  { s with replies := s.replies.drop count, requests := s.requests ++ List.replicate count r }

/-- What the service says to a request. -/
def Service.reply (s : Service) (request : Nat) : Reply :=
  s.replies[request]?.getD defaultReply

theorem Service.serve_eq (s : Service) (r : Request) : s.serve r = (s.reply 0, s.after r 1) := by
  unfold serve reply after
  rw [List.head?_eq_getElem?, List.drop_one]
  rfl

@[simp] theorem Service.after_zero (s : Service) (r : Request) : s.after r 0 = s := by
  simp [after]

@[simp] theorem Service.after_after (s : Service) (r : Request) (first more : Nat) :
    (s.after r first).after r more = s.after r (first + more) := by
  simp [after, List.drop_drop, List.replicate_append_replicate]

@[simp] theorem Service.reply_after (s : Service) (r : Request) (count request : Nat) :
    (s.after r count).reply request = s.reply (count + request) := by
  simp [after, reply, List.getElem?_drop]

namespace Client

/-- Requests can be built, and get to the service. -/
structure Reaches (c : Client) (service : Service) : Prop where
  host : (host? c.address).isSome
  token : fitsHeader c.token
  address : service.address.toList.isPrefixOf c.address.toList

example : (make "xoxb").Reaches ⟨publicAddress, [], []⟩ :=
  ⟨by decide, by decide, by decide⟩

/-- The request that posts a notification to the channel of an identifier. -/
def post (c : Client) (service : Service) (id : Identifier) (n : Notification) : Request :=
  ⟨String.ofList (c.address.toList.drop service.address.length) ++ "/" ++ "chat.postMessage",
    authorization c.token, body id.value n⟩

variable {c : Client} {n : Notification} {token : Token} {deadline : Option Nat}
  {service : Service} {tl : Timeline} {id : Identifier}

theorem push_of_missing (h : n.recipient.get? c.userId = none) :
    c.push n token deadline (service, tl) =
      (some (.error (.lasting (MissingIdentifier.message ⟨c.userId, n.recipient⟩))), service, tl) := by
  rw [push, IdentifierSet.require, h]

/-- A push to somebody with a channel is one call. -/
theorem push_of_some (h : n.recipient.get? c.userId = some id) :
    (c.push n token deadline (service, tl)).1 =
        (c.call "chat.postMessage" (body id.value n) token deadline (service, tl)).1 ∧
      (c.push n token deadline (service, tl)).2.1 =
        (c.call "chat.postMessage" (body id.value n) token deadline (service, tl)).2.1 := by
  unfold push IdentifierSet.require
  rw [h]
  dsimp only
  split
  · rename_i heq
    rw [heq]
    exact ⟨rfl, rfl⟩
  · exact ⟨rfl, rfl⟩

variable (deadline) (method : String) (content : Json)

theorem call_of_cancelled (h : tl.isCancelled token) :
    c.call method content token deadline (service, tl) = (some (.error .cancelled), service, tl) := by
  rw [call, if_pos h]

/-- Without a service to talk to there is no request. -/
theorem call_of_unreached (hgoes : tl.isCancelled token = false) (h : ¬c.Reaches service) :
    ∃ e, c.call method content token deadline (service, tl) = (some (.error e), service, tl) := by
  rw [call, if_neg (Bool.eq_false_iff.mp hgoes)]
  by_cases hbuilt : (host? c.address).isNone || !fitsHeader c.token
  · rw [if_pos hbuilt]
    exact ⟨_, rfl⟩
  · rw [if_neg hbuilt]
    by_cases haddress : service.address.toList.isPrefixOf c.address.toList
    · rw [Bool.or_eq_true, not_or, Option.isNone_iff_eq_none, Bool.not_eq_true', Bool.not_eq_false]
        at hbuilt
      exact absurd ⟨Option.isSome_iff_ne_none.mpr hbuilt.1, hbuilt.2, haddress⟩ h
    · rw [Bool.not_eq_true] at haddress
      rw [haddress, if_pos Bool.not_false]
      exact ⟨_, rfl⟩

/-- A call is one request, and if it is answered, the answer counts. -/
theorem call_of_reaches (hgoes : tl.isCancelled token = false) (h : c.Reaches service) :
    (c.call method content token deadline (service, tl)).2.1 = service.after
        ⟨String.ofList (c.address.toList.drop service.address.length) ++ "/" ++ method,
          authorization c.token, content⟩ 1 ∧
      ∀ status text, service.reply 0 = .answer status text →
        (c.call method content token deadline (service, tl)).1 = some (judge method status text) := by
  have hbuilt : ¬((host? c.address).isNone || !fitsHeader c.token) := by
    rw [h.token, Bool.not_true, Bool.or_false, Option.isNone_iff_eq_none]
    exact Option.isSome_iff_ne_none.mp h.host
  rw [call, if_neg (Bool.eq_false_iff.mp hgoes), if_neg hbuilt, h.address, Bool.not_true,
    if_neg Bool.false_ne_true]
  dsimp only
  rw [Service.serve_eq]
  cases service.reply 0 with
  | answer status text =>
    refine ⟨rfl, fun status' text' heq => ?_⟩
    cases heq
    rfl
  | close => exact ⟨rfl, nofun⟩
  | hang =>
    refine ⟨?_, nofun⟩
    dsimp only
    split <;> rfl

end Client

/-! ### Repetition -/

/-- A reply after which the request may be repeated: an answer that leaves hope, or none at all. -/
inductive Reply.Passes : Reply → Prop
  | answer {status : Http.Status} {text : String} (h : Defers status text) : Passes (.answer status text)
  | close : Passes .close
  | hang : Passes .hang

/-- The result is there, and nobody tries again after it. -/
def Ended (result : Option (Except PushError Unit)) : Prop :=
  ∃ final, result = some final ∧ IsFinal final

/-- Pushing has led to so many requests. All replies but the last one have passed, and the last one has
as well unless the push has ended. -/
structure Progress (c : Client) (service : Service) (r : Request)
    (result : Option (Except PushError Unit)) (e : Endpoint) (count : Nat) : Prop where
  endpoint_eq : e = .slack c (service.after r count)
  passes : ∀ j, j + 1 < count → (service.reply j).Passes
  open_passes : ¬Ended result → ∀ j < count, (service.reply j).Passes

variable {c : Client} {service : Service} {r : Request} {result result' : Option (Except PushError Unit)}
  {e e' : Endpoint} {count more : Nat}

theorem progress_zero (result : Option (Except PushError Unit)) :
    Progress c service r result (.slack c service) 0 where
  endpoint_eq := by rw [Service.after_zero]
  passes j hj := absurd hj (Nat.not_lt_zero _)
  open_passes _ j hj := absurd hj (Nat.not_lt_zero _)

/-- What is still open may be taken for something else. -/
theorem Progress.of_open (h : Progress c service r result e count) (hopen : ¬Ended result) :
    Progress c service r result' e count where
  endpoint_eq := h.endpoint_eq
  passes := h.passes
  open_passes _ := h.open_passes hopen

/-- What is still open goes on. -/
theorem Progress.trans (h : Progress c service r result e count) (hopen : ¬Ended result)
    (hmore : Progress c (service.after r count) r result' e' more) :
    Progress c service r result' e' (count + more) := by
  have hpast : ∀ j < count, (service.reply j).Passes := h.open_passes hopen
  refine ⟨?_, fun j hj => ?_, fun hopen' j hj => ?_⟩
  · rw [hmore.endpoint_eq, Service.after_after]
  · obtain hlt | hle := Nat.lt_or_ge j count
    · exact hpast j hlt
    · have hpasses := hmore.passes (j - count) (by omega)
      rwa [Service.reply_after, Nat.add_sub_cancel' hle] at hpasses
  · obtain hlt | hle := Nat.lt_or_ge j count
    · exact hpast j hlt
    · have hpasses := hmore.open_passes hopen' (j - count) (by omega)
      rwa [Service.reply_after, Nat.add_sub_cancel' hle] at hpasses

theorem not_ended_none : ¬Ended none := by
  rintro ⟨_, h, -⟩
  cases h

theorem not_ended_transient {failure : PushError} (h : failure.permanent = false) :
    ¬Ended (some (.error failure)) := by
  rintro ⟨_, heq, hfinal⟩
  cases heq
  rw [hfinal failure rfl] at h
  cases h

theorem passes_of_open {status : Http.Status} {text : String} {final : Except PushError Unit}
    (h : Settles status text final) (hopen : ¬Ended (some final)) : Defers status text := by
  refine h.transient_iff.mp ?_
  cases final with
  | ok =>
    refine absurd ⟨_, rfl, ?_⟩ hopen
    exact fun _ herror => nomatch herror
  | error failure =>
    refine ⟨failure, rfl, Bool.eq_false_iff.mpr fun hpermanent => hopen ⟨_, rfl, ?_⟩⟩
    rintro _ ⟨⟩
    exact hpermanent

section

variable {n : Notification} {id : Identifier}

theorem progress_push (hid : n.recipient.get? c.userId = some id) (hr : r = c.post service id n)
    (token : Token) (deadline : Option Nat) (tl : Timeline) : ∃ count, Progress c service r
      (Endpoint.push n token deadline (.slack c service, tl)).1
      (Endpoint.push n token deadline (.slack c service, tl)).2.1 count := by
  unfold Endpoint.push
  dsimp only
  rw [(Client.push_of_some hid).1, (Client.push_of_some hid).2]
  cases hgoes : tl.isCancelled token with
  | true =>
    rw [Client.call_of_cancelled _ _ _ hgoes]
    exact ⟨0, progress_zero _⟩
  | false =>
    by_cases hreach : c.Reaches service
    · obtain ⟨hafter, hanswer⟩ :=
        Client.call_of_reaches deadline "chat.postMessage" (body id.value n) hgoes hreach
      refine ⟨1, ?_, fun j hj => absurd hj (by omega), fun hopen j hj => ?_⟩
      · rw [hafter, hr]
        rfl
      · obtain rfl := Nat.lt_one_iff.mp hj
        cases hreply : service.reply 0 with
        | answer status text =>
          rw [hanswer status text hreply] at hopen
          exact .answer (passes_of_open (settles_judge _ status text) hopen)
        | close => exact .close
        | hang => exact .hang
    · obtain ⟨failure, hcall⟩ :=
        Client.call_of_unreached deadline "chat.postMessage" (body id.value n) hgoes hreach
      rw [hcall]
      exact ⟨0, progress_zero _⟩

/-- What one call does to the service, a series of calls does as well. By induction on the series: only
a call that has not ended is followed by another one. -/
theorem progress_repeats {p : RetryPolicy} {transport : String} {token : Token}
    {deadline : Option Nat} {operation : Course Endpoint (Except PushError Unit)} {left made : Nat}
    {state : Endpoint × Timeline} {starts : List (Endpoint × Timeline)}
    {out : Option (Retried Unit) × Endpoint × Timeline}
    (hoperation : ∀ service tl, r = c.post service id n → ∃ count, Progress c service r
      (operation (.slack c service, tl)).1 (operation (.slack c service, tl)).2.1 count)
    (h : p.Repeats transport token deadline operation left made state starts out)
    (hstate : state.1 = .slack c service) (hr : r = c.post service id n) :
    ∃ count, Progress c service r (out.1.map Retried.result) out.2.1 count := by
  induction h generalizing service with
  | calledOff =>
    rw [hstate]
    exact ⟨0, progress_zero _⟩
  | @ended _ _ e e' tl tl' result out _ heq hout =>
    obtain rfl : e = .slack c service := hstate
    obtain ⟨count, hprogress⟩ := hoperation service tl hr
    rw [heq] at hprogress
    -- The last call decides, whether or not it was the last one allowed.
    have hsame : out.map Retried.result = result := by
      obtain _ | _ | failure := result
      · rw [hout]
        rfl
      · obtain ⟨-, hout⟩ | ⟨-, -, hout⟩ := hout
        · rw [hout]
          rfl
        · rw [hout]
          rfl
      · rw [hout]
        rfl
    rw [hsame]
    exact ⟨count, hprogress⟩
  | @interrupted _ _ e e' tl tl' tl'' failure ending _ heq htransient _ _ =>
    obtain rfl : e = .slack c service := hstate
    obtain ⟨count, hprogress⟩ := hoperation service tl hr
    rw [heq] at hprogress
    exact ⟨count, hprogress.of_open (not_ended_transient htransient)⟩
  | @again _ _ e e' tl tl' tl'' failure _ _ _ heq htransient _ _ ih =>
    obtain rfl : e = .slack c service := hstate
    obtain ⟨count, hprogress⟩ := hoperation service tl hr
    rw [heq] at hprogress
    obtain ⟨more, hmore⟩ := ih hprogress.endpoint_eq hr
    exact ⟨count + more, hprogress.trans (not_ended_transient htransient) hmore⟩

theorem progress_pushThrough (hid : n.recipient.get? c.userId = some id)
    (layers : List Layer) (token : Token) (deadline : Option Nat) (service : Service) (tl : Timeline)
    (hr : r = c.post service id n) : ∃ count, Progress c service r
      (Transport.pushThrough n layers token deadline (.slack c service, tl)).1
      (Transport.pushThrough n layers token deadline (.slack c service, tl)).2.1 count := by
  induction layers generalizing token deadline service tl with
  | nil => exact progress_push hid hr token deadline tl
  | cons layer inner ih =>
    cases layer with
    | logging level =>
      obtain ⟨count, hprogress⟩ := ih token deadline service tl hr
      refine ⟨count, ?_⟩
      rw [Transport.pushThrough_logging]
      split
      · rename_i heq
        rw [heq] at hprogress
        exact hprogress
      · exact hprogress
    | timeout limit =>
      obtain ⟨count, hprogress⟩ := ih _ _ service (tl.issue token).2 hr
      refine ⟨count, ?_⟩
      rw [Transport.pushThrough_timeout]
      split
      · rename_i heq
        rw [heq] at hprogress
        exact hprogress
      · rename_i heq
        rw [heq] at hprogress
        split
        · exact hprogress
        · exact hprogress.of_open not_ended_none
    | retry policy =>
      rw [Transport.pushThrough_retry]
      exact progress_repeats (fun service tl hr => ih token deadline service tl hr)
        (policy.repeats_attempts _ token deadline _ _ 0 _) rfl hr

/-- Whichever layers there are, nothing is sent to somebody without a channel. -/
theorem pushThrough_of_missing (h : n.recipient.get? c.userId = none) (layers : List Layer)
    (token : Token) (deadline : Option Nat) (service : Service) (tl : Timeline) :
    (Transport.pushThrough n layers token deadline (.slack c service, tl)).2.1 = .slack c service := by
  have hconduct : Transport.Conduct n (fun _ _ e _ => e = .slack c service)
      fun _ _ e _ => e = .slack c service :=
    { weaken := fun he => he
      reach := by
        rintro token deadline e tl rfl
        unfold Endpoint.push
        dsimp only
        rw [Client.push_of_missing h]
      report := fun _ _ _ he => he
      pause := fun he _ => he
      again := fun he _ => he
      enter := fun _ he => he
      leave := fun _ he => he
      expire := fun _ he => he }
  exact (hconduct.pushThrough layers token deadline (.slack c service, tl) rfl).1

end

/-! ### Delivery -/

/-- What a client does with a notification. -/
structure Delivers (c : Client) (n : Notification) (token : Token) (deadline : Option Nat)
    (service : Service) (tl : Timeline) : Prop where
  missing : n.recipient.get? c.userId = none → ∃ e, e.permanent = true ∧
    c.push n token deadline (service, tl) = (some (.error e), service, tl)
  cancelled : tl.isCancelled token → (c.push n token deadline (service, tl)).2.1 = service
  unreached : ¬c.Reaches service → (c.push n token deadline (service, tl)).2.1 = service
  posted : ∀ id, n.recipient.get? c.userId = some id → tl.isCancelled token = false →
    c.Reaches service →
      (c.push n token deadline (service, tl)).2.1 = service.after (c.post service id n) 1
  content : ∀ id, ∃ members, (c.post service id n).body = .object members ∧ Posts n id.value members
  settled : ∀ id status text, n.recipient.get? c.userId = some id → tl.isCancelled token = false →
    c.Reaches service → service.reply 0 = .answer status text →
      ∃ result, (c.push n token deadline (service, tl)).1 = some result ∧ Settles status text result
  /-- Within layers the same request may be repeated, but only after a reply that lets it pass. -/
  repeated : ∀ id layers, n.recipient.get? c.userId = some id → ∃ count,
    (Transport.pushThrough n layers token deadline (.slack c service, tl)).2.1 =
        .slack c (service.after (c.post service id n) count) ∧
      ∀ j, j + 1 < count → (service.reply j).Passes
  silent : ∀ layers, n.recipient.get? c.userId = none →
    (Transport.pushThrough n layers token deadline (.slack c service, tl)).2.1 = .slack c service

/-- A push is one request to the recipient's own channel, and nothing that the options say redirects it.
The answer alone decides what comes of it, and whether it is repeated. -/
theorem push_posts_once (c : Client) (n : Notification) (token : Token) (deadline : Option Nat)
    (service : Service) (tl : Timeline) : Delivers c n token deadline service tl where
  missing h := ⟨_, rfl, Client.push_of_missing h⟩
  cancelled hcancelled := by
    cases hid : n.recipient.get? c.userId with
    | none => rw [Client.push_of_missing hid]
    | some id => rw [(Client.push_of_some hid).2, Client.call_of_cancelled _ _ _ hcancelled]
  unreached hreach := by
    cases hid : n.recipient.get? c.userId with
    | none => rw [Client.push_of_missing hid]
    | some id =>
      rw [(Client.push_of_some hid).2]
      cases hgoes : tl.isCancelled token with
      | true => rw [Client.call_of_cancelled _ _ _ hgoes]
      | false =>
        obtain ⟨_, hcall⟩ := Client.call_of_unreached _ _ _ hgoes hreach
        rw [hcall]
  posted id hid hgoes hreach := by
    rw [(Client.push_of_some hid).2, (Client.call_of_reaches _ _ _ hgoes hreach).1]
    rfl
  content id := exists_body id.value n
  settled id status text hid hgoes hreach hreply := by
    refine ⟨_, ?_, settles_judge "chat.postMessage" status text⟩
    rw [(Client.push_of_some hid).1, (Client.call_of_reaches _ _ _ hgoes hreach).2 status text hreply]
  repeated id layers hid := by
    obtain ⟨count, hprogress⟩ := progress_pushThrough hid layers token deadline service tl rfl
    exact ⟨count, hprogress.endpoint_eq, hprogress.passes⟩
  silent layers h := pushThrough_of_missing h layers token deadline service tl

example : Json.decodeText Verdict.decoder
    "\x7b\"ok\": false, \"error\": \"ratelimited\"\x7d" = .ok ⟨false, some "ratelimited"⟩ := by
  cbv

end Slack

end Herald
