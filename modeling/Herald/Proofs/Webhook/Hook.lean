import Herald.Proofs.Ascending
import Herald.Proofs.Result
import Herald.Proofs.Source
import Herald.Proofs.Webhook.Signature
import Mathlib

/-!
Who is listened to. A delivery gives an event, or is passed over, only if its sender knows the secret. Any
other is turned down by its headers alone: the answer says nothing about what is wanted or about the body.
-/

namespace Herald

open Result

namespace Hook

/-- The headers without which a delivery is turned down. -/
def requiredHeaders : Hook → List String
  | .github _ => ["x-github-event", "x-hub-signature-256"]
  | .gitlab _ => ["x-gitlab-token"]

/-- The delivery shows that its sender knows the secret. -/
def Authentic (s : Submission) : Hook → Prop
  | .github secret => ∃ signature, s.header? "x-hub-signature-256" = some signature ∧
      Webhook.Signature.Spells signature (Digest.hmac secret s.body)
  | .gitlab token => s.header? "x-gitlab-token" = some token

/-- The name of the event, where the forge writes it. -/
def eventName? (s : Submission) (body : Json) : Hook → Option String
  | .github _ => s.header? "x-github-event"
  | .gitlab _ => (body.member "object_kind").text?

/-- The subject of the event, where the forge writes it. -/
def subject? (body : Json) : Hook → Option String
  | .github _ => ((body.member "repository").member "full_name").text?
  | .gitlab _ => ((body.member "project").member "path_with_namespace").text?

/-- The id of the delivery, where the forge writes it. -/
def deliveryId? (s : Submission) : Hook → Option String
  | .github _ => s.header? "x-github-delivery"
  | .gitlab _ => s.header? "x-gitlab-event-uuid"

/-- Why a delivery with all headers is turned down. -/
def mistrust : Hook → Refusal
  | .github _ => .badSignature
  | .gitlab _ => .badToken

/-- Why a delivery that is not authentic is turned down. -/
def denial (s : Submission) (hook : Hook) : Refusal :=
  match hook.requiredHeaders.find? fun name => (s.header? name).isNone with
  | some name => .missingHeader name
  | none => hook.mistrust

variable {hook : Hook} {s : Submission} {allowlist : List String}

@[simp] theorem requireHeader_eq_ok_iff {name value : String} :
    requireHeader s name = .ok value ↔ s.header? name = some value := by
  unfold requireHeader
  cases s.header? name <;> simp

@[simp] theorem requireAllowed_eq_ok_iff {event : String} {passed : Unit} :
    requireAllowed allowlist event = .ok passed ↔ event ∈ allowlist := by
  unfold requireAllowed
  split <;> simp_all

theorem readBody_eq_ok_iff {body : Json} :
    readBody s = .ok body ↔ Json.decodeBytes Json.anyValue s.body = .ok body :=
  Result.mapError_eq_ok

/-! ### Deliveries that are not authentic -/

theorem readSigned_of_not_authentic {secret : List UInt8}
    (h : ¬(Hook.github secret).Authentic s) (allowlist : List String) :
    readSigned secret s allowlist = .error ((Hook.github secret).denial s) := by
  simp only [readSigned, requireHeader, denial, requiredHeaders]
  cases hevent : s.header? "x-github-event" with
  | none => simp [hevent, bind, Except.bind]
  | some event =>
    cases hsignature : s.header? "x-hub-signature-256" with
    | none => simp [hevent, hsignature, bind, Except.bind]
    | some signature =>
      have hverify : Webhook.Signature.verify s.body signature secret = false := by
        rw [Bool.eq_false_iff, ne_eq, Webhook.Signature.verify_iff]
        exact fun hspells => h ⟨signature, hsignature, hspells⟩
      simp [hevent, hsignature, hverify, bind, Except.bind, mistrust]

theorem readTokened_of_not_authentic {token : String}
    (h : ¬(Hook.gitlab token).Authentic s) (allowlist : List String) :
    readTokened token s allowlist = .error ((Hook.gitlab token).denial s) := by
  simp only [readTokened, requireHeader, denial, requiredHeaders]
  cases htoken : s.header? "x-gitlab-token" with
  | none => simp [htoken, bind, Except.bind]
  | some provided =>
    have hverify : Webhook.Signature.verifyToken provided token = false := by
      rw [Bool.eq_false_iff, ne_eq, Webhook.Signature.verifyToken_iff]
      rintro rfl
      exact h htoken
    simp [htoken, hverify, bind, Except.bind, mistrust]

theorem read_of_not_authentic (h : ¬hook.Authentic s) (allowlist : List String) :
    hook.read s allowlist = .error (hook.denial s) := by
  cases hook with
  | github secret => exact readSigned_of_not_authentic h allowlist
  | gitlab token => exact readTokened_of_not_authentic h allowlist

/-! ### Deliveries that are read -/

/-- The delivery is authentic, its event is on the allowlist and its body can be read. -/
def Reads (s : Submission) (allowlist : List String) (hook : Hook) (d : Delivery) : Prop :=
  hook.Authentic s ∧ ∃ name body, name ∈ allowlist ∧
    Json.decodeBytes Json.anyValue s.body = .ok body ∧ hook.eventName? s body = some name ∧
      d = ⟨hook.name, name, hook.deliveryId? s, hook.subject? body, body⟩

theorem readSigned_eq_ok_iff {secret : List UInt8} {d : Delivery} :
    readSigned secret s allowlist = .ok d ↔ (Hook.github secret).Reads s allowlist d := by
  simp only [readSigned, bind_eq_ok, ite_eq_ok, requireHeader_eq_ok_iff, requireAllowed_eq_ok_iff,
    readBody_eq_ok_iff, Webhook.Signature.verify_iff]
  constructor
  · rintro ⟨event, hevent, signature, hsignature, hspells, -, hallowed, body, hbody, hd⟩
    cases hd
    exact ⟨⟨signature, hsignature, hspells⟩, event, body, hallowed, hbody, hevent, rfl⟩
  · rintro ⟨⟨signature, hsignature, hspells⟩, event, body, hallowed, hbody, hevent, rfl⟩
    exact ⟨event, hevent, signature, hsignature, hspells, (), hallowed, body, hbody, rfl⟩

theorem readTokened_eq_ok_iff {token : String} {d : Delivery} :
    readTokened token s allowlist = .ok d ↔ (Hook.gitlab token).Reads s allowlist d := by
  simp only [readTokened, bind_eq_ok, ite_eq_ok, requireHeader_eq_ok_iff, readBody_eq_ok_iff,
    Webhook.Signature.verifyToken_iff]
  constructor
  · rintro ⟨provided, hprovided, rfl, body, hbody, hd⟩
    split at hd
    · rename_i event hevent
      obtain ⟨⟨⟩, hallowed, hd⟩ := bind_eq_ok.mp hd
      cases hd
      exact ⟨hprovided, event, body, requireAllowed_eq_ok_iff.mp hallowed, hbody, hevent, rfl⟩
    · cases hd
  · rintro ⟨htoken, event, body, hallowed, hbody, hevent, rfl⟩
    refine ⟨token, htoken, rfl, body, hbody, ?_⟩
    have hname : (body.member "object_kind").text? = some event := hevent
    rw [hname]
    exact bind_eq_ok.mpr ⟨(), requireAllowed_eq_ok_iff.mpr hallowed, rfl⟩

theorem read_eq_ok_iff {d : Delivery} :
    hook.read s allowlist = .ok d ↔ hook.Reads s allowlist d := by
  cases hook with
  | github secret => exact readSigned_eq_ok_iff
  | gitlab token => exact readTokened_eq_ok_iff

end Hook

namespace Source

variable {hook : Hook} {allowlist : List String} {arrival : Arrival} {s : Submission} {e : Event}

/-- The event says what was delivered under this name and with this body. -/
structure Conveys (hook : Hook) (arrival : Arrival) (s : Submission) (name : String) (body : Json)
    (e : Event) : Prop where
  id : e.context.id = arrival.id
  source : e.context.source = "/webhooks/" ++ hook.name
  type : e.context.type = "com." ++ hook.name ++ "." ++ name
  subject : e.context.subject = hook.subject? body
  time : e.context.time = some arrival.time
  delivery : e.context.labels.get? "delivery" = hook.deliveryId? s
  other : ∀ label, label ≠ "delivery" → e.context.labels.get? label = none
  content : e.content =
    .delivery ⟨hook.name, name, hook.deliveryId? s, hook.subject? body, body⟩

/-- Whatever is delivered makes an event, with the id of the delivery as its only label. -/
theorem ofDelivery_of_ne (hook : Hook) (hid : arrival.id ≠ "") (d : Delivery) :
    ∃ labels : Dictionary String, labels.get? "delivery" = d.id ∧
      (∀ label, label ≠ "delivery" → labels.get? label = none) ∧
      ofDelivery hook arrival d = .ok ⟨⟨arrival.id, hook.source, hook.eventType d.event, d.subject,
        some arrival.time, labels, hid, hook.eventType_ne_empty d.event⟩, .delivery d⟩ := by
  unfold ofDelivery
  simp only [Context.ofParts_of_ne hid (hook.eventType_ne_empty d.event)]
  cases d.id with
  | none => exact ⟨∅, rfl, fun _ _ => rfl, rfl⟩
  | some id =>
    refine ⟨Dictionary.set ∅ "delivery" id, ?_, fun label hlabel => ?_, rfl⟩
    · rw [Dictionary.get?_set, if_pos rfl]
    · rw [Dictionary.get?_set, if_neg hlabel.symm, Dictionary.get?_empty]

theorem ofDelivery_of_empty (hook : Hook) (hid : arrival.id = "") (d : Delivery) :
    ofDelivery hook arrival d = .error (.malformed Context.Invalid.emptyId.message) := by
  unfold ofDelivery Context.ofParts
  simp only [dif_pos hid]
  rfl

theorem conveys_of_ofDelivery {name : String} {body : Json}
    (h : ofDelivery hook arrival
      ⟨hook.name, name, hook.deliveryId? s, hook.subject? body, body⟩ = .ok e) :
    Conveys hook arrival s name body e := by
  by_cases hid : arrival.id = ""
  · rw [ofDelivery_of_empty hook hid] at h
    cases h
  · obtain ⟨labels, hdelivery, hother, heq⟩ := ofDelivery_of_ne hook hid
      ⟨hook.name, name, hook.deliveryId? s, hook.subject? body, body⟩
    cases heq.symm.trans h
    exact ⟨rfl, rfl, rfl, rfl, rfl, hdelivery, hother, rfl⟩

/-- The answer to a delivery that is not authentic: it is unauthorized if it has all headers that it
needs, and else a bad request. -/
def denial (hook : Hook) (s : Submission) : ParseError :=
  .refused (if ∀ name ∈ hook.requiredHeaders, (s.header? name).isSome then .unauthorized
    else .badRequest) (hook.denial s).message

theorem answerRefusal_denial (hook : Hook) (s : Submission) :
    answerRefusal hook (hook.denial s) = .pure (.error (denial hook s)) := by
  unfold denial Hook.denial
  cases hmissing : hook.requiredHeaders.find? fun name => (s.header? name).isNone with
  | none =>
    have hall : ∀ name ∈ hook.requiredHeaders, (s.header? name).isSome := by
      intro name hname
      simpa [Option.isSome_iff_ne_none] using List.find?_eq_none.mp hmissing name hname
    rw [if_pos hall]
    cases hook <;> rfl
  | some name =>
    have hname : ¬∀ name ∈ hook.requiredHeaders, (s.header? name).isSome := by
      intro hall
      have hsome := hall name (List.mem_of_find?_eq_some hmissing)
      have hnone := List.find?_some hmissing
      simp_all
    rw [if_neg hname]
    rfl

theorem read_of_not_authentic (h : ¬hook.Authentic s) (allowlist : List String)
    (arrival : Arrival) :
    read (.webhook hook allowlist) arrival s = .pure (.error (denial hook s)) := by
  unfold read
  dsimp only
  rw [Hook.read_of_not_authentic h]
  exact answerRefusal_denial hook s

theorem value_read_eq_some_iff :
    (read (.webhook hook allowlist) arrival s).value = .ok (some e) ↔
      ∃ d, hook.read s allowlist = .ok d ∧ ofDelivery hook arrival d = .ok e := by
  unfold read
  dsimp only
  cases hook.read s allowlist with
  | error refusal => cases refusal <;> simp [answerRefusal]
  | ok d => cases hmade : ofDelivery hook arrival d <;> simp [Except.map, hmade]

/-- A source of webhooks answers well to authentic deliveries only. All others are turned down alike,
whatever their body and whatever the allowlist. An event is what was delivered, if it is on the allowlist
and the body can be read. -/
structure HeedsOnlyAuthentic (hook : Hook) (allowlist : List String) (arrival : Arrival)
    (s : Submission) : Prop where
  authentic : ∀ answer, (read (.webhook hook allowlist) arrival s).value = .ok answer →
    hook.Authentic s
  denied : ¬hook.Authentic s →
    read (.webhook hook allowlist) arrival s = .pure (.error (denial hook s))
  deniedAlike : ¬hook.Authentic s → ∀ body allowlist' arrival',
    ¬hook.Authentic { s with body } →
      read (.webhook hook allowlist') arrival' { s with body } =
        read (.webhook hook allowlist) arrival s
  conveyed : ∀ e, (read (.webhook hook allowlist) arrival s).value = .ok (some e) →
    ∃ name body, name ∈ allowlist ∧ Json.decodeBytes Json.anyValue s.body = .ok body ∧
      hook.eventName? s body = some name ∧ Conveys hook arrival s name body e
  heard : arrival.id ≠ "" → hook.Authentic s → ∀ name body, name ∈ allowlist →
    Json.decodeBytes Json.anyValue s.body = .ok body → hook.eventName? s body = some name →
      ∃ e, (read (.webhook hook allowlist) arrival s).value = .ok (some e)

/-- Only authentic deliveries are listened to. -/
theorem only_authentic_deliveries_heeded (hook : Hook) (allowlist : List String)
    (arrival : Arrival) (s : Submission) : HeedsOnlyAuthentic hook allowlist arrival s where
  authentic answer hanswer := by
    by_contra h
    rw [read_of_not_authentic h] at hanswer
    cases hanswer
  denied h := read_of_not_authentic h allowlist arrival
  deniedAlike h body allowlist' arrival' h' := by
    rw [read_of_not_authentic h, read_of_not_authentic h']
    rfl
  conveyed e he := by
    obtain ⟨d, hd, he⟩ := value_read_eq_some_iff.mp he
    obtain ⟨-, name, body, hallowed, hbody, hname, rfl⟩ := Hook.read_eq_ok_iff.mp hd
    exact ⟨name, body, hallowed, hbody, hname, conveys_of_ofDelivery he⟩
  heard hid h name body hallowed hbody hname := by
    have hd := Hook.read_eq_ok_iff.mpr ⟨h, name, body, hallowed, hbody, hname, rfl⟩
    obtain ⟨labels, -, -, he⟩ := ofDelivery_of_ne hook hid
      ⟨hook.name, name, hook.deliveryId? s, hook.subject? body, body⟩
    exact ⟨_, value_read_eq_some_iff.mpr ⟨_, hd, he⟩⟩

/-! An example: a delivery that is signed in capital letters, and what becomes of it if the body is
changed on the way. -/

/-- A forge that signs its deliveries. -/
def sampleHook : Hook :=
  .github (Text.Utf8.encode "s3cret")

/-- A delivery of the forge. -/
def sampleDelivery : Submission where
  headers := [("X-GitHub-Event", "pull_request"), ("X-GitHub-Delivery", "72d3162e"),
    ("X-Hub-Signature-256",
      "sha256=F17EAF5E117602372403E39BAFD91DB752AED4506B1C54CA27CED27B2102F884")]
  body := Text.Utf8.encode "\x7b\"repository\":\x7b\"full_name\":\"octo/repo\"\x7d\x7d"

/-- What the delivery is read as. -/
def sampleBody : Json :=
  .object [("repository", .object [("full_name", .string "octo/repo")])]

/-- The moment of its arrival. -/
def sampleArrival : Arrival :=
  ⟨"1", ⟨⟨2024, 1, 1⟩, 0, 0, 0, 0⟩⟩

theorem only_authentic_deliveries_heeded_sample :
    sampleHook.Authentic sampleDelivery ∧
      (∃ e, (read (.webhook sampleHook ["pull_request"]) sampleArrival
          sampleDelivery).value = .ok (some e)) ∧
      ¬sampleHook.Authentic { sampleDelivery with body := [] } ∧
      read (.webhook sampleHook ["pull_request"]) sampleArrival
          { sampleDelivery with body := [] } =
        .pure (.error (.unauthorized "invalid signature")) := by
  have hsignature : sampleDelivery.header? "x-hub-signature-256" =
      some "sha256=F17EAF5E117602372403E39BAFD91DB752AED4506B1C54CA27CED27B2102F884" := by
    decide +kernel
  have hauthentic : sampleHook.Authentic sampleDelivery :=
    ⟨_, hsignature, "F17EAF5E117602372403E39BAFD91DB752AED4506B1C54CA27CED27B2102F884".toList,
      by decide +kernel, by decide +kernel⟩
  have hforged : ¬sampleHook.Authentic { sampleDelivery with body := [] } := by
    rintro ⟨signature, hheader, hspells⟩
    cases hheader.symm.trans hsignature
    rw [← Webhook.Signature.parseHeader_eq_some_iff] at hspells
    revert hspells
    decide +kernel
  have hheeds := only_authentic_deliveries_heeded sampleHook ["pull_request"] sampleArrival
  refine ⟨hauthentic, ?_, hforged, ?_⟩
  · exact (hheeds sampleDelivery).heard (by decide) hauthentic "pull_request" sampleBody (by decide)
      (by cbv) (by decide +kernel)
  · have hdenial : denial sampleHook { sampleDelivery with body := [] } =
        .unauthorized "invalid signature" := by
      decide +kernel
    rw [← hdenial]
    exact (hheeds { sampleDelivery with body := [] }).denied hforged

end Source

end Herald
