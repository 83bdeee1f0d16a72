import Herald.Proofs.Processor.Yield
import Herald.Proofs.Server.History
import Herald.Proofs.Source
import Herald.Proofs.Transport.Ending

/-!
How events are answered. The answer says whether the event was understood and whether there was
anything to send. It is settled before anything is sent: what becomes of the notifications, and who
wants them, does not show in it.
-/

namespace Herald

open Timeline

/-- More has been reported. -/
def Timeline.remark (tl : Timeline) (records : Log) : Timeline :=
  { tl with log := tl.log ++ records }

@[simp] theorem Timeline.remark_nil (tl : Timeline) : tl.remark [] = tl := by
  rw [remark, List.append_nil]

theorem Timeline.remark_append (tl : Timeline) (records more : Log) :
    tl.remark (records ++ more) = (tl.remark records).remark more := by
  simp only [remark, List.append_assoc]

namespace Server

/-! ### Verdicts -/

/-- What a server is to answer to a submission, and the notifications that it is to dispatch. -/
inductive Verdict (s : Server) (key : String) (arrival : Arrival) (submission : Submission) :
    Http.Response → List Notification → Prop
  | unknown (hsource : s.sources.get? key = none) : Verdict s key arrival submission
      (.plain .notFound s!"no parser registered for {Text.quote key}") []
  | refused {source : Source} {status : Http.Status} {reason : String}
      (hsource : s.sources.get? key = some source)
      (hread : (source.read arrival submission).value = .error (.refused status reason)) :
      Verdict s key arrival submission (.plain status reason) []
  | unreadable {source : Source} {e : ParseError} (hsource : s.sources.get? key = some source)
      (hread : (source.read arrival submission).value = .error e) (hreason : e.reason? = none) :
      Verdict s key arrival submission (.plain .internalError e.message) []
  | ignored {source : Source} (hsource : s.sources.get? key = some source)
      (hread : (source.read arrival submission).value = .ok none) :
      Verdict s key arrival submission notInterested []
  | stopped {source : Source} {e : Event} {failure : ProcessError}
      (hsource : s.sources.get? key = some source)
      (hread : (source.read arrival submission).value = .ok (some e))
      (hstopped : Processor.Stopped s.store e s.processors [] failure) :
      Verdict s key arrival submission (.plain .internalError failure.message) []
  | nothing {source : Source} {e : Event} (hsource : s.sources.get? key = some source)
      (hread : (source.read arrival submission).value = .ok (some e))
      (hran : Processor.Ran s.store e s.processors [] []) :
      Verdict s key arrival submission nothingToSend []
  | sent {source : Source} {e : Event} {ns : List Notification}
      (hsource : s.sources.get? key = some source)
      (hread : (source.read arrival submission).value = .ok (some e))
      (hran : Processor.Ran s.store e s.processors [] ns) (hne : ns ≠ []) :
      Verdict s key arrival submission dispatched ns

/-- What a server is to answer to a request for the source that a segment names. -/
inductive PostVerdict (s : Server) (segment : String) (arrival : Arrival) (r : Http.Request) :
    Http.Response → List Notification → Prop
  | badName (hkey : Http.segmentName segment = none) :
      PostVerdict s segment arrival r (badSegment "parser") []
  | tooLarge {key : String} (hkey : Http.segmentName segment = some key)
      (hsize : largestBody < r.body.length) : PostVerdict s segment arrival r tooLarge []
  | read {key : String} {x : Http.Response} {ns : List Notification}
      (hkey : Http.segmentName segment = some key) (hsize : r.body.length ≤ largestBody)
      (hverdict : Verdict s key arrival ⟨r.headers, r.body⟩ x ns) :
      PostVerdict s segment arrival r x ns

/-- The answer to an event. -/
def eventResponse (s : Server) (e : Event) : Http.Response :=
  match (Processor.runChain s.store s.processors e).value with
  | .error failure => .plain .internalError failure.message
  | .ok [] => nothingToSend
  | .ok _ => dispatched

/-- The answer to a submission. -/
def submissionResponse (s : Server) (key : String) (arrival : Arrival) (submission : Submission) :
    Http.Response :=
  match s.sources.get? key with
  | none => .plain .notFound s!"no parser registered for {Text.quote key}"
  | some source =>
    match (source.read arrival submission).value with
    | .error e => parseFailure e
    | .ok none => notInterested
    | .ok (some e) => s.eventResponse e

/-- The answer to a request for the source that a segment names. -/
def postResponse (s : Server) (arrival : Arrival) (r : Http.Request) (segment : String) :
    Http.Response :=
  match Http.segmentName segment with
  | none => badSegment "parser"
  | some key =>
    if largestBody < r.body.length then tooLarge
    else s.submissionResponse key arrival ⟨r.headers, r.body⟩

theorem verdict_submissionResponse (s : Server) (key : String) (arrival : Arrival)
    (submission : Submission) :
    s.Verdict key arrival submission (s.submissionResponse key arrival submission)
      (s.submissionNotifications key arrival submission) := by
  unfold submissionResponse submissionNotifications
  cases hsource : s.sources.get? key with
  | none => exact .unknown hsource
  | some source =>
    dsimp only
    cases hread : (source.read arrival submission).value with
    | error e =>
      cases e with
      | refused status reason => exact .refused hsource hread
      | malformed reason => exact .unreadable hsource hread rfl
      | internal reason => exact .unreadable hsource hread rfl
    | ok event =>
      cases event with
      | none => exact .ignored hsource hread
      | some e =>
        dsimp only
        unfold eventResponse eventNotifications Processor.runChain
        obtain ⟨ns, hran, hvalue⟩ | ⟨failure, hstopped, hvalue⟩ :=
          Processor.runOn_cases s.store e s.processors []
        · rw [hvalue]
          cases ns with
          | nil => exact .nothing hsource hread hran
          | cons n rest => exact .sent hsource hread hran (List.cons_ne_nil n rest)
        · rw [hvalue]
          exact .stopped hsource hread hstopped

theorem postVerdict_postResponse (s : Server) (segment : String) (arrival : Arrival)
    (r : Http.Request) :
    s.PostVerdict segment arrival r (s.postResponse arrival r segment)
      (s.postedNotifications arrival r segment) := by
  unfold postResponse postedNotifications
  cases hkey : Http.segmentName segment with
  | none => exact .badName hkey
  | some key =>
    dsimp only
    split
    · rename_i hsize
      exact .tooLarge hkey hsize
    · rename_i hsize
      exact .read hkey (Nat.le_of_not_lt hsize) (s.verdict_submissionResponse key arrival _)

/-! ### Dispatching -/

/-- The notifications are pushed once each, in order, whatever comes of it, with nothing but reports in
between. If one of these pushes does not end, it is the last. -/
inductive Dispatched (token : Token) :
    List Notification → Notifier × Timeline → (ended : Bool) → Notifier × Timeline → Prop
  | nil (state : Notifier × Timeline) : Dispatched token [] state true state
  | cons {n : Notification} {rest : List Notification} {notifier notifier' : Notifier}
      {tl tl' : Timeline} {result : Except DispatchError Unit} {ended : Bool}
      {state : Notifier × Timeline}
      (hpush : Notifier.push n token (notifier, tl) = (some result, notifier', tl')) (records : Log)
      (more : Dispatched token rest (notifier', tl'.remark records) ended state) :
      Dispatched token (n :: rest) (notifier, tl) ended state
  | endless {n : Notification} {rest : List Notification} {notifier notifier' : Notifier}
      {tl tl' : Timeline} (hpush : Notifier.push n token (notifier, tl) = (none, notifier', tl')) :
      Dispatched token (n :: rest) (notifier, tl) false (notifier', tl')

theorem dispatched_dispatchAll (context : Context) (token : Token) (ns : List Notification)
    (notifier : Notifier) (tl : Timeline) :
    Dispatched token ns (notifier, tl) (dispatchAll context token ns notifier tl).1.isSome
      (dispatchAll context token ns notifier tl).2 := by
  induction ns generalizing notifier tl with
  | nil => exact .nil (notifier, tl)
  | cons n rest ih =>
    unfold dispatchAll
    split
    · rename_i hpush
      exact .endless hpush
    · rename_i notifier' tl' hpush
      have hmore := ih notifier' tl'
      refine .cons hpush [] ?_
      rw [remark_nil]
      exact hmore
    · rename_i e notifier' tl' hpush
      have hmore := ih notifier' (tl'.report .warn "Notification delivery failed"
        [("id", context.id), ("to", n.recipient.text), ("error", e.message)])
      dsimp only
      rw [Option.isSome_map]
      exact .cons hpush [⟨.warn, "Notification delivery failed", _⟩] hmore

/-- True if all transports are prompt. -/
def isPrompt (s : Server) : Bool :=
  s.notifier.isPrompt

theorem isSome_dispatchAll (context : Context) (token : Token) (ns : List Notification)
    {notifier : Notifier} (h : notifier.isPrompt) (tl : Timeline) :
    (dispatchAll context token ns notifier tl).1.isSome := by
  induction ns generalizing notifier tl with
  | nil => rfl
  | cons n rest ih =>
    have hfirst := Notifier.isPrompt_push n token h tl
    unfold dispatchAll
    split
    · rename_i heq
      rw [heq] at hfirst
      cases hfirst.1
    · rename_i heq
      rw [heq] at hfirst
      exact ih hfirst.2 _
    · rename_i heq
      rw [heq] at hfirst
      dsimp only
      rw [Option.isSome_map]
      exact ih hfirst.2 _

/-- The notifications have been dispatched, and then this was answered, unless a transport waits for
ever. Besides there were only reports. -/
structure Delivers (s : Server) (tl : Timeline) (token : Token) (ns : List Notification)
    (x : Http.Response) (out : Option Http.Response × Server × Timeline) : Prop where
  answer : out.1 = some x ∨ out.1 = none ∧ ns ≠ [] ∧ s.isPrompt = false
  course : ∃ before after notifier tl',
    Dispatched token ns (s.notifier, tl.remark before) out.1.isSome (notifier, tl') ∧
      out.2 = ({ s with transports := notifier.transports }, tl'.remark after)

variable {s : Server} {tl : Timeline} {token : Token} {ns : List Notification} {x : Http.Response}
  {out : Option Http.Response × Server × Timeline}

/-- If there is nothing to dispatch, there are only reports. -/
theorem Delivers.of_remarks (s : Server) (tl : Timeline) (token : Token) (x : Http.Response)
    (records : Log) : Delivers s tl token [] x (some x, s, tl.remark records) where
  answer := .inl rfl
  course := ⟨records, [], s.notifier, tl.remark records, .nil _, by rw [remark_nil]; rfl⟩

theorem Delivers.of_nothing (s : Server) (tl : Timeline) (token : Token) (x : Http.Response) :
    Delivers s tl token [] x (some x, s, tl) := by
  have hremarks := Delivers.of_remarks s tl token x []
  rw [remark_nil] at hremarks
  exact hremarks

theorem Delivers.after_remarks (records : Log)
    (h : Delivers s (tl.remark records) token ns x out) : Delivers s tl token ns x out := by
  obtain ⟨before, after, notifier, tl', hdispatched, hout⟩ := h.course
  refine ⟨h.answer, records ++ before, after, notifier, tl', ?_, hout⟩
  rw [remark_append]
  exact hdispatched

/-- If there is nothing to dispatch, no transport is invoked. -/
theorem Delivers.of_nil (h : Delivers s tl token [] x out) :
    out.1 = some x ∧ ∃ records, out.2 = (s, tl.remark records) := by
  obtain ⟨before, after, notifier, tl', hdispatched, hout⟩ := h.course
  refine ⟨h.answer.resolve_right fun hnone => hnone.2.1 rfl, before ++ after, ?_⟩
  generalize hended : out.1.isSome = ended at hdispatched
  cases hdispatched
  rw [hout, remark_append]
  rfl

theorem delivers_deliver (context : Context) (token : Token) (hne : ns ≠ []) (s : Server)
    (tl : Timeline) : Delivers s tl token ns dispatched (deliver context ns token (s, tl)) := by
  have hdispatched : Dispatched token ns (s.notifier, tl.remark [])
      (dispatchAll context token ns s.notifier tl).1.isSome
      (dispatchAll context token ns s.notifier tl).2 := by
    rw [remark_nil]
    exact dispatched_dispatchAll context token ns s.notifier tl
  unfold deliver
  dsimp only
  split
  · rename_i failed heq
    rw [heq] at hdispatched
    refine ⟨.inl rfl, [], ?_⟩
    unfold reportDispatch
    split
    · exact ⟨[_], _, _, hdispatched, rfl⟩
    · exact ⟨[_], _, _, hdispatched, rfl⟩
  · rename_i heq
    rw [heq] at hdispatched
    refine ⟨.inr ⟨rfl, hne, Bool.eq_false_iff.mpr fun hprompt => ?_⟩, ?_⟩
    · have hsome := isSome_dispatchAll context token ns hprompt tl
      rw [heq] at hsome
      cases hsome
    · exact ⟨[], [], _, _, hdispatched, by rw [remark_nil]⟩

theorem delivers_processEvent (e : Event) (token : Token) (s : Server) (tl : Timeline) :
    Delivers s tl token (s.eventNotifications e) (s.eventResponse e)
      (processEvent e token (s, tl)) := by
  refine Delivers.after_remarks [⟨.debug, "Parsed event",
    [("id", e.context.id), ("event_type", e.context.type)]⟩] (.after_remarks
      (Processor.runChain s.store s.processors e).log ?_)
  unfold processEvent eventNotifications eventResponse
  dsimp only
  cases (Processor.runChain s.store s.processors e).value with
  | error failure => exact .of_remarks s _ token _ [_]
  | ok ns =>
    cases ns with
    | nil => exact .of_nothing s _ token _
    | cons n rest => exact delivers_deliver e.context token (List.cons_ne_nil n rest) s _

theorem delivers_ingest (key : String) (arrival : Arrival) (submission : Submission) (token : Token)
    (s : Server) (tl : Timeline) :
    Delivers s tl token (s.submissionNotifications key arrival submission)
      (s.submissionResponse key arrival submission)
      (ingest key arrival submission token (s, tl)) := by
  unfold ingest submissionNotifications submissionResponse
  dsimp only
  cases s.sources.get? key with
  | none => exact .of_nothing s tl token _
  | some source =>
    refine Delivers.after_remarks (source.read arrival submission).log ?_
    dsimp only
    cases (source.read arrival submission).value with
    | error e => exact .of_remarks s _ token _ [_]
    | ok event =>
      cases event with
      | none => exact .of_remarks s _ token _ [_]
      | some e => exact delivers_processEvent e token s _

theorem delivers_answer (arrival : Arrival) (r : Http.Request) (token : Token) (segment : String)
    (s : Server) (tl : Timeline) :
    Delivers s tl token (s.postedNotifications arrival r segment)
      (s.postResponse arrival r segment) (answer arrival r token (.event segment) (s, tl)) := by
  unfold answer postedNotifications postResponse
  dsimp only
  cases Http.segmentName segment with
  | none => exact .of_nothing s tl token _
  | some key =>
    dsimp only
    split
    · exact .of_nothing s tl token _
    · exact delivers_ingest key arrival _ token s tl

/-! ### Answers that are alike -/

/-- The servers take in events alike: they differ only in transports, users and preferences. -/
structure TakesInLike (s s' : Server) : Prop where
  sources : s'.sources = s.sources
  processors : s'.processors = s.processors
  pages : s'.pages = s.pages
  builtInSources : ∀ source ∈ s.sources.values, source.isBuiltIn
  builtInProcessors : ∀ p ∈ s.processors, p.isBuiltIn

variable {s' : Server} {arrival arrival' : Arrival} {r : Http.Request}

/-- Events with the same content are answered the same by both. -/
theorem TakesInLike.eventResponse_eq (h : TakesInLike s s') {e e' : Event}
    (he : e.content = e'.content) : s'.eventResponse e' = s.eventResponse e := by
  have hsimilar := Processor.similar_runOn s.store s'.store h.builtInProcessors he
    (Processor.Alike.refl [])
  unfold eventResponse Processor.runChain
  rw [h.processors]
  generalize (Processor.runOn s.store e s.processors []).value = result at hsimilar ⊢
  generalize (Processor.runOn s'.store e' s.processors []).value = result' at hsimilar ⊢
  cases hsimilar with
  | error failure => rfl
  | @ok ns ns' halike =>
    have hnil := halike.nil_iff
    cases ns with
    | nil =>
      rw [hnil.mp rfl]
    | cons n rest =>
      cases ns' with
      | nil => exact absurd (hnil.mpr rfl) (List.cons_ne_nil n rest)
      | cons n' rest' => rfl

theorem TakesInLike.postResponse_eq (h : TakesInLike s s') (hid : arrival.id ≠ "")
    (hid' : arrival'.id ≠ "") (r : Http.Request) (segment : String) :
    s'.postResponse arrival' r segment = s.postResponse arrival r segment := by
  unfold postResponse submissionResponse
  rw [h.sources]
  cases Http.segmentName segment with
  | none => rfl
  | some key =>
    dsimp only
    cases hsource : s.sources.get? key with
    | none => rfl
    | some source =>
      have hbuiltIn := h.builtInSources source (Dictionary.mem_values_of_get? hsource)
      have hread := Source.sameContent_read hbuiltIn hid hid' ⟨r.headers, r.body⟩
      dsimp only
      generalize (source.read arrival ⟨r.headers, r.body⟩).value = result at hread ⊢
      generalize (source.read arrival' ⟨r.headers, r.body⟩).value = result' at hread ⊢
      cases hread with
      | error e => rfl
      | none => rfl
      | event he =>
        dsimp only
        rw [h.eventResponse_eq he]

/-! ### Requests -/

theorem handle_event (hmethod : r.method = "POST") {segment : String}
    (hroute : s.route r = some (.event segment)) (arrival : Arrival) (tl : Timeline) :
    handle arrival r (s, tl) =
      ((answer arrival r (tl.issue .requests).1 (.event segment) (s, (tl.issue .requests).2)).1,
        (answer arrival r (tl.issue .requests).1 (.event segment) (s, (tl.issue .requests).2)).2.1,
        (answer arrival r (tl.issue .requests).1 (.event segment)
          (s, (tl.issue .requests).2)).2.2.cancel (tl.issue .requests).1) := by
  have hbody : (fun x : Http.Response => if r.method = "HEAD" then x.bare else x) = id := by
    funext x
    rw [if_neg (by rw [hmethod]; decide)]
    rfl
  rw [handle_of_allows arrival tl hroute (by rw [hmethod]; rfl), hbody, Option.map_id]
  rfl

theorem requestNotifications_event (hmethod : r.method = "POST") {segment : String}
    (hroute : s.route r = some (.event segment)) (arrival : Arrival) :
    s.requestNotifications arrival r = s.postedNotifications arrival r segment := by
  rw [requestNotifications, hroute]
  exact if_pos hmethod

/-- The request is answered so, unless a transport waits for ever. -/
def Answers (s : Server) (r : Http.Request) (arrival : Arrival) (tl : Timeline) (x : Http.Response) :
    Prop :=
  (handle arrival r (s, tl)).1 = some x ∨
    (handle arrival r (s, tl)).1 = none ∧ s.isPrompt = false

/-- The request is answered so, and exactly these notifications are dispatched before, one after
another; every transport has its turn with each of them. If there are none, no transport is invoked. -/
structure Settles (s : Server) (r : Http.Request) (arrival : Arrival) (tl : Timeline)
    (x : Http.Response) (ns : List Notification) : Prop where
  answer : s.Answers r arrival tl x
  pushes : ∃ before after notifier tl',
    Dispatched (tl.issue .requests).1 ns (s.notifier, (tl.issue .requests).2.remark before)
        (handle arrival r (s, tl)).1.isSome (notifier, tl') ∧
      (handle arrival r (s, tl)).2 = ({ s with transports := notifier.transports },
        (tl'.remark after).cancel (tl.issue .requests).1)
  turns : ∃ turns, HasTurns (pairs s.transportKeys ns) (handle arrival r (s, tl)).1.isSome turns tl
    (handle arrival r (s, tl)).2.2
  untouched : ns = [] → (handle arrival r (s, tl)).1 = some x ∧ (handle arrival r (s, tl)).2.1 = s ∧
    (handle arrival r (s, tl)).2.2.turns = tl.turns ∧
    (handle arrival r (s, tl)).2.2.sightings = tl.sightings

theorem answers_postResponse (hmethod : r.method = "POST") {segment : String}
    (hroute : s.route r = some (.event segment)) (arrival : Arrival) (tl : Timeline) :
    s.Answers r arrival tl (s.postResponse arrival r segment) := by
  have hdelivers := delivers_answer arrival r (tl.issue .requests).1 segment s (tl.issue .requests).2
  rw [Answers, handle_event hmethod hroute]
  exact hdelivers.answer.imp_right fun hnone => ⟨hnone.1, hnone.2.2⟩

theorem settles_postResponse (hmethod : r.method = "POST") {segment : String}
    (hroute : s.route r = some (.event segment)) (arrival : Arrival) (tl : Timeline) :
    s.Settles r arrival tl (s.postResponse arrival r segment)
      (s.postedNotifications arrival r segment) where
  answer := answers_postResponse hmethod hroute arrival tl
  pushes := by
    obtain ⟨before, after, notifier, tl', hdispatched, hout⟩ := (delivers_answer arrival r
      (tl.issue .requests).1 segment s (tl.issue .requests).2).course
    rw [handle_event hmethod hroute]
    exact ⟨before, after, notifier, tl', hdispatched, by rw [hout]⟩
  turns := by
    obtain ⟨turns, hturns, -, -⟩ := (⟨arrival, r, tl⟩ : Visit).exists_hasTurns s
    rw [Visit.HasTurns, requestNotifications_event hmethod hroute] at hturns
    exact ⟨turns, hturns⟩
  untouched hnil := by
    have hdelivers := delivers_answer arrival r (tl.issue .requests).1 segment s
      (tl.issue .requests).2
    rw [hnil] at hdelivers
    obtain ⟨hanswer, records, hout⟩ := hdelivers.of_nil
    rw [handle_event hmethod hroute, hout]
    exact ⟨hanswer, rfl, rfl, rfl⟩

/-- A request with an event is answered by its verdict, whatever becomes of the notifications, each of
which is pushed once, in order. Servers that differ only in transports, users and preferences answer
the same. -/
theorem event_answer_settled_before_delivery (s : Server) (r : Http.Request) (arrival : Arrival)
    (tl : Timeline) (segment : String) (hmethod : r.method = "POST")
    (hroute : s.route r = some (.event segment)) :
    (∃ x ns, s.PostVerdict segment arrival r x ns ∧ s.Settles r arrival tl x ns) ∧
      ∀ s' arrival' tl', TakesInLike s s' → arrival.id ≠ "" → arrival'.id ≠ "" →
        ∃ x, s.Answers r arrival tl x ∧ s'.Answers r arrival' tl' x := by
  refine ⟨⟨_, _, s.postVerdict_postResponse segment arrival r,
    settles_postResponse hmethod hroute arrival tl⟩, fun s' arrival' tl' hlike hid hid' => ?_⟩
  refine ⟨_, answers_postResponse hmethod hroute arrival tl, ?_⟩
  rw [← hlike.postResponse_eq hid hid']
  exact answers_postResponse hmethod ((route_eq_of_pages_eq hlike.pages r).trans hroute) arrival' tl'

/-! An example: the user of one server does not want what comes, and its transport delivers to nobody
else. -/

/-- The server of the example, with another transport and another user. -/
def silentServer : Server :=
  { sampleServer with
    transports := [.ofEndpoint .blackhole]
    store := .ofUsers [⟨"eve", ∅, sampleWishes⟩]
    fallback := .always false }

theorem event_answer_settled_before_delivery_sample :
    samplePost.request.method = "POST" ∧
      sampleServer.route samplePost.request = some (.event "example") ∧
      TakesInLike sampleServer silentServer ∧ sampleArrival.id ≠ "" ∧
      (∃ x ns, sampleServer.PostVerdict "example" sampleArrival samplePost.request x ns ∧
        sampleServer.Settles samplePost.request sampleArrival (.start none .requests) x ns) ∧
      ∃ x, sampleServer.Answers samplePost.request sampleArrival (.start none .requests) x ∧
        silentServer.Answers samplePost.request sampleArrival (.start (some 5) .requests) x := by
  have hroute : sampleServer.route samplePost.request = some (.event "example") := by decide
  have hlike : TakesInLike sampleServer silentServer := ⟨rfl, rfl, rfl, by decide, by decide⟩
  have hid : sampleArrival.id ≠ "" := by decide
  obtain ⟨hsettled, hsame⟩ := event_answer_settled_before_delivery sampleServer samplePost.request
    sampleArrival (.start none .requests) "example" rfl hroute
  exact ⟨rfl, hroute, hlike, hid, hsettled,
    hsame silentServer sampleArrival (.start (some 5) .requests) hlike hid hid⟩

end Server

end Herald
