import Herald.Proofs.Processor.Retelling
import Herald.Proofs.Server.EventTypes
import Herald.Proofs.Server.Preferences
import Herald.Proofs.Server.Pushes
import Herald.Proofs.Server.Users

/-!
Discretion. What somebody prefers shows only where their preferences are read, and in what is sent to
whoever is found to be them. All other requests are answered the same, and all other notifications are
pushed over the same transports.
-/

namespace Herald

/-- The same notification, about an event of the same type. -/
structure Notification.Retold (n n' : Notification) : Prop where
  eq : n' = n.under n'.context
  type : n'.context.type = n.context.type

theorem Notification.Retold.recipient {n n' : Notification} (h : n.Retold n') :
    n'.recipient = n.recipient := by
  rw [h.eq, Notification.recipient_under]

namespace Server

variable {s s' : Server} {key : String} {v v' : Visit} {r : Http.Request}

/-! ### Twins -/

/-- The servers differ only in what they store and in what their transports hold. -/
structure Twins (s s' : Server) : Prop extends SetUpAlike s s' where
  pages : s'.pages = s.pages
  fallback : s'.fallback = s.fallback
  transports : s'.transportKeys = s.transportKeys

namespace Twins

theorem refl (s : Server) : Twins s s :=
  ⟨⟨rfl, rfl⟩, rfl, rfl, rfl⟩

theorem symm (h : Twins s s') : Twins s' s :=
  ⟨⟨h.sources.symm, h.processors.symm⟩, h.pages.symm, h.fallback.symm, h.transports.symm⟩

theorem trans {s'' : Server} (h : Twins s s') (h' : Twins s' s'') : Twins s s'' where
  toSetUpAlike := h.toSetUpAlike.trans h'.toSetUpAlike
  pages := h'.pages.trans h.pages
  fallback := h'.fallback.trans h.fallback
  transports := h'.transports.trans h.transports

theorem route_eq (h : Twins s s') (r : Http.Request) : s'.route r = s.route r :=
  route_eq_of_pages_eq h.pages r

theorem hydrate_eq (h : Twins s s') (m : PreferenceMap) : s'.hydrate m = s.hydrate m := by
  refine hydrate_eq_of_fallback ?_ h.transports h.fallback m
  unfold eventTypes
  rw [h.sources]

theorem configuration_eq (h : Twins s s') : s'.configuration = s.configuration := by
  unfold configuration
  rw [h.sources, h.transports]

end Twins

/-- A visit changes nothing else. -/
theorem twins_outcome (v : Visit) (s : Server) : Twins s (v.outcome s).2.1 := by
  obtain ⟨_, _, _, -, -, -, heq⟩ | ⟨-, hworked⟩ := store_handle v.arrival v.request s v.timeline
  · rw [Visit.outcome, heq]
    exact ⟨⟨rfl, rfl⟩, rfl, rfl, rfl⟩
  · have hkeys := hworked.keys
    rw [Visit.outcome]
    rw [hworked.eq] at hkeys ⊢
    exact ⟨⟨rfl, rfl⟩, rfl, rfl, hkeys⟩

theorem twins_after (s : Server) (visits : List Visit) : Twins s (s.after visits) := by
  induction visits generalizing s with
  | nil => exact .refl s
  | cons v rest ih => exact (twins_outcome v s).trans (ih _)

/-! ### Servers that go on by themselves -/

/-- The server is made of built-in parts, all its transports are prompt, and no record keeps anybody from
being found. -/
structure Sound (s : Server) : Prop where
  sources : ∀ source ∈ s.sources.values, source.isBuiltIn
  processors : ∀ p ∈ s.processors, p.isBuiltIn
  fallback : s.fallback.isBuiltIn
  prompt : s.isPrompt
  reads : ∀ candidates, s.store.Reads candidates

theorem Dispatched.isPrompt {token : Token} {ns : List Notification} {state state' : Notifier × Timeline}
    {ended : Bool} (h : Dispatched token ns state ended state') (hprompt : state.1.isPrompt) :
    state'.1.isPrompt := by
  induction h with
  | nil state => exact hprompt
  | @cons n _ _ _ tl _ _ _ _ hpush _ _ ih =>
    have hkept := (Notifier.isPrompt_push n token hprompt tl).2
    rw [hpush] at hkept
    exact ih hkept
  | @endless n _ _ _ tl _ hpush =>
    have hkept := (Notifier.isPrompt_push n token hprompt tl).2
    rw [hpush] at hkept
    exact hkept

/-- Where no event is taken in, no transport is touched. -/
theorem transports_handle (arrival : Arrival) (tl : Timeline)
    (h : ∀ segment, s.route r = some (.event segment) → r.method ≠ "POST") :
    (handle arrival r (s, tl)).2.1.transports = s.transports := by
  by_cases hallowed : ∃ route, s.route r = some route ∧ route.allows r.method
  · obtain ⟨route, hroute, hallows⟩ := hallowed
    rw [handle_of_allows arrival tl hroute hallows]
    cases route with
    | event segment => exact absurd (beq_iff_eq.mp hallows) (h segment hroute)
    | preferences user =>
      have hanswered : (answerPreferences user r s).value.2.transports = s.transports := by
        obtain ⟨_, _, _, -, -, -, -, -, heq⟩ | ⟨-, heq⟩ := answerPreferences_cases user r s
        · rw [heq]
        · rw [heq]
      exact hanswered
    | _ => rfl
  · obtain ⟨x, -, heq⟩ := handle_of_not_allows arrival tl fun route hroute hallows =>
      hallowed ⟨route, hroute, hallows⟩
    rw [heq]

theorem isPrompt_outcome (hprompt : s.isPrompt) (v : Visit) : (v.outcome s).2.1.isPrompt := by
  by_cases hevent : ∃ segment, s.route v.request = some (.event segment) ∧ v.request.method = "POST"
  · obtain ⟨segment, hroute, hpost⟩ := hevent
    obtain ⟨before, after, notifier, tl', hdispatched, hout⟩ :=
      (settles_postResponse hpost hroute v.arrival v.timeline).pushes
    rw [Visit.outcome, hout]
    exact hdispatched.isPrompt hprompt
  · have htransports := transports_handle v.arrival v.timeline fun segment hroute hpost =>
      hevent ⟨segment, hroute, hpost⟩
    unfold isPrompt Notifier.isPrompt notifier at hprompt ⊢
    rw [Visit.outcome, htransports]
    exact hprompt

theorem Sound.outcome (h : s.Sound) (v : Visit) : (v.outcome s).2.1.Sound := by
  have htwins := twins_outcome v s
  have hreads : ∀ candidates, (v.outcome s).2.1.store.Reads candidates := by
    obtain ⟨_, -, hrewritten⟩ | ⟨-, hsame⟩ := v.store_outcome s
    · exact fun candidates => hrewritten.reads (h.reads candidates)
    · exact hsame ▸ h.reads
  exact ⟨htwins.sources ▸ h.sources, htwins.processors ▸ h.processors,
    htwins.fallback ▸ h.fallback, isPrompt_outcome h.prompt v, hreads⟩

theorem Sound.after (h : s.Sound) (visits : List Visit) : (s.after visits).Sound := by
  induction visits generalizing s with
  | nil => exact h
  | cons v rest ih => exact ih (h.outcome v)

/-! ### Servers that agree -/

/-- Twins that have the same users, of whom only the one with this key may prefer something else. -/
structure AgreeBut (key : String) (s s' : Server) : Prop extends Twins s s' where
  store : s.store.Rewritten (· = key) s'.store

theorem AgreeBut.refl (key : String) (s : Server) : AgreeBut key s s :=
  ⟨.refl s, .refl s.store⟩

theorem AgreeBut.takesInLike (h : AgreeBut key s s') (hs : s.Sound) : TakesInLike s s' :=
  ⟨h.sources, h.processors, h.pages, hs.sources, hs.processors⟩

/-! ### Answers -/

/-- The request is about the preferences of the user with this key. -/
def Concerns (s : Server) (r : Http.Request) (key : String) : Prop :=
  ∃ user, s.route r = some (.preferences user) ∧ Http.segmentName user = some key

/-- The same request again, at another time. -/
structure Visit.Repeats (v' v : Visit) : Prop where
  request : v'.request = v.request
  id_ne_empty : v.arrival.id ≠ ""
  id_ne_empty' : v'.arrival.id ≠ ""

/-- What a request is answered, by what its route answers. -/
theorem response_handle (arrival : Arrival) (r : Http.Request) (s : Server) (tl : Timeline) :
    (handle arrival r (s, tl)).1 =
      match s.route r with
      | none => some (.empty .notFound)
      | some route =>
        if route.allows r.method then
          (answer arrival r (tl.issue .requests).1 route (s, (tl.issue .requests).2)).1.map
            fun x => if r.method = "HEAD" then x.bare else x
        else some (.empty .methodNotAllowed) := by
  unfold handle
  dsimp only
  cases s.route r with
  | none => rfl
  | some route =>
    dsimp only
    split <;> rfl

theorem replacePreferences_eq (h : AgreeBut key s s') (name : String) (body : List UInt8) :
    (replacePreferences name body s').value.1 = (replacePreferences name body s).value.1 := by
  unfold replacePreferences
  cases Json.decodeBytes preferencesDecoder body with
  | error fault => rfl
  | ok m =>
    have hset := h.store.alike_setPreferences name m
    dsimp only
    generalize s.store.setPreferences name m = x at hset ⊢
    generalize s'.store.setPreferences name m = x' at hset ⊢
    cases hset with
    | error e => rfl
    | @ok store store' _ =>
      have hhydrate : ({ s' with store := store' } : Server).hydrate m = { s with store }.hydrate m :=
        ((hydrate_store s' store' m).trans (h.hydrate_eq m)).trans (hydrate_store s store m).symm
      simp only [Logged.value_bind, Logged.value_pure, hhydrate]

theorem showPreferences_eq (h : AgreeBut key s s') {name : String} (hne : name ≠ key) :
    showPreferences name s' = showPreferences name s := by
  unfold showPreferences
  rw [h.store.get_eq hne]
  cases s.store.get name with
  | error e => rfl
  | ok user =>
    dsimp only
    rw [h.hydrate_eq]

/-- All but whoever reads what the one user prefers is answered the same. -/
theorem answerPreferences_eq (h : AgreeBut key s s') {user : String}
    (hother : r.method ≠ "PUT" → Http.segmentName user ≠ some key) :
    (answerPreferences user r s').value.1 = (answerPreferences user r s).value.1 := by
  unfold answerPreferences
  cases hname : Http.segmentName user with
  | none => rfl
  | some name =>
    dsimp only
    split
    · split
      · rfl
      · exact replacePreferences_eq h name r.body
    · rename_i hmethod
      have hne : name ≠ key := fun heq => hother hmethod (hname.trans (congrArg some heq))
      rw [showPreferences_eq h hne]
      rfl

theorem answer_event (hs : s.isPrompt) (arrival : Arrival) (r : Http.Request) (token : Token)
    (segment : String) (tl : Timeline) :
    (answer arrival r token (.event segment) (s, tl)).1 = some (s.postResponse arrival r segment) := by
  obtain hsome | ⟨-, -, hprompt⟩ := (delivers_answer arrival r token segment s tl).answer
  · exact hsome
  · rw [hs] at hprompt
    cases hprompt

/-- Sooner or later every request is answered. -/
theorem isSome_outcome (hs : s.isPrompt) (v : Visit) : (v.outcome s).1.isSome := by
  rw [Visit.outcome, response_handle]
  cases s.route v.request with
  | none => rfl
  | some route =>
    dsimp only
    split
    · cases route with
      | event segment =>
        rw [answer_event hs]
        rfl
      | _ => rfl
    · rfl

/-- Every request is answered the same, unless it reads what the one user prefers. -/
theorem response_eq (h : AgreeBut key s s') (hs : s.Sound) (hs' : s'.Sound) (hv : v'.Repeats v)
    (hother : s.Concerns v.request key → isReading v.request.method = false) :
    ∃ x, (v.outcome s).1 = some x ∧ (v'.outcome s').1 = some x := by
  rw [Visit.outcome, Visit.outcome, response_handle, response_handle, hv.request, h.route_eq]
  cases hroute : s.route v.request with
  | none => exact ⟨_, rfl, rfl⟩
  | some route =>
    dsimp only
    split
    · rename_i hallows
      cases route with
      | event segment =>
        rw [answer_event hs.prompt, answer_event hs'.prompt,
          (h.takesInLike hs).postResponse_eq hv.id_ne_empty hv.id_ne_empty']
        exact ⟨_, rfl, rfl⟩
      | preferences user =>
        have hanswer : (answerPreferences user v.request s').value.1 =
            (answerPreferences user v.request s).value.1 := by
          refine answerPreferences_eq h fun hmethod hname => ?_
          simp [Route.allows, hother ⟨user, hroute, hname⟩, hmethod] at hallows
        refine ⟨_, rfl, ?_⟩
        simp only [answer, hanswer]
        rfl
      | configuration =>
        refine ⟨_, rfl, ?_⟩
        simp only [answer, h.configuration_eq]
        rfl
      | _ => exact ⟨_, rfl, rfl⟩
    · exact ⟨_, rfl, rfl⟩

/-! ### Histories with more requests -/

theorem AgreeBut.response_eq_of_route (h : AgreeBut key s s') (hrequest : v'.request = v.request)
    {user : String} (hroute : s.route v.request = some (.preferences user))
    (hother : v.request.method ≠ "PUT" → Http.segmentName user ≠ some key) :
    (v'.outcome s').1 = (v.outcome s).1 := by
  rw [Visit.outcome, Visit.outcome, response_handle, response_handle, hrequest, h.route_eq, hroute]
  simp only [answer, answerPreferences_eq h hother]

/-- If one of the servers replaces preferences, so does the other. -/
theorem AgreeBut.replaces_iff (h : AgreeBut key s s') (hrequest : v'.request = v.request)
    {name : String} : v'.Replaces s' name ↔ v.Replaces s name := by
  have hpath : v'.request.method = "PUT" ∧ (∃ user, s'.route v'.request = some (.preferences user) ∧
        Http.segmentName user = some name) ↔
      v.request.method = "PUT" ∧ ∃ user, s.route v.request = some (.preferences user) ∧
        Http.segmentName user = some name := by
    rw [hrequest, h.route_eq]
  constructor
  · intro hreplaces
    obtain ⟨hmethod, user, hroute, hname⟩ := hpath.mp ⟨hreplaces.method, hreplaces.path⟩
    refine ⟨hmethod, ⟨user, hroute, hname⟩, ?_⟩
    rw [← h.response_eq_of_route hrequest hroute (absurd hmethod)]
    exact hreplaces.status
  · intro hreplaces
    obtain ⟨user, hroute, hname⟩ := hreplaces.path
    obtain ⟨hmethod', hpath'⟩ := hpath.mpr ⟨hreplaces.method, user, hroute, hname⟩
    refine ⟨hmethod', hpath', ?_⟩
    rw [h.response_eq_of_route hrequest hroute (absurd hreplaces.method)]
    exact hreplaces.status

/-- The same request has both store the same preferences of the same user, or nothing. -/
theorem AgreeBut.stores_outcome (h : AgreeBut key s s') (hrequest : v'.request = v.request) :
    (∃ name m, s.store.setPreferences name m = .ok (v.outcome s).2.1.store ∧
        s'.store.setPreferences name m = .ok (v'.outcome s').2.1.store) ∨
      (v.outcome s).2.1.store = s.store ∧ (v'.outcome s').2.1.store = s'.store := by
  unfold Visit.outcome
  obtain ⟨name, m, store, hreplaces, hdecode, hset, heq⟩ | ⟨hnone, hworked⟩ :=
    store_handle v.arrival v.request s v.timeline
  · obtain ⟨name', m', store', hreplaces', hdecode', hset', heq'⟩ | ⟨hnone', -⟩ :=
      store_handle v'.arrival v'.request s' v'.timeline
    · obtain rfl : name = name' := hreplaces.key_eq ((h.replaces_iff hrequest).mp hreplaces')
      rw [hrequest] at hdecode'
      obtain rfl : m = m' := Except.ok.inj (hdecode.symm.trans hdecode')
      rw [heq, heq']
      exact .inl ⟨name, m, hset, hset'⟩
    · exact absurd ((h.replaces_iff hrequest).mpr hreplaces) (hnone' name)
  · obtain ⟨name', -, -, hreplaces', -⟩ | ⟨-, hworked'⟩ :=
      store_handle v'.arrival v'.request s' v'.timeline
    · exact absurd ((h.replaces_iff hrequest).mp hreplaces') (hnone name')
    · rw [hworked.eq, hworked'.eq]
      exact .inr ⟨rfl, rfl⟩

theorem AgreeBut.rewritten_outcome (h : AgreeBut key s s') (hrequest : v'.request = v.request) :
    (v.outcome s).2.1.store.Rewritten (· = key) (v'.outcome s').2.1.store := by
  obtain ⟨name, m, hset, hset'⟩ | ⟨hsame, hsame'⟩ := h.stores_outcome hrequest
  · have halike := h.store.alike_setPreferences name m
    rw [hset, hset'] at halike
    cases halike with
    | ok hstore => exact hstore
  · rw [hsame, hsame']
    exact h.store

/-- Servers go on to agree when they get the same request. -/
theorem AgreeBut.outcome (h : AgreeBut key s s') (hrequest : v'.request = v.request) :
    AgreeBut key (v.outcome s).2.1 (v'.outcome s').2.1 where
  toTwins :=
    ((twins_outcome v s).symm.trans h.toTwins).trans (twins_outcome v' s')
  store := h.rewritten_outcome hrequest

/-- They also do when one of them gets a request about the user in whom they may differ. -/
theorem AgreeBut.outcome_right (h : AgreeBut key s s') (hconcerns : s'.Concerns v.request key) :
    AgreeBut key s (v.outcome s').2.1 where
  toTwins := h.toTwins.trans (twins_outcome v s')
  store := by
    obtain ⟨name, hreplaces, hrewritten⟩ | ⟨-, hsame⟩ := v.store_outcome s'
    · obtain rfl : name = key := by
        obtain ⟨user, hroute, hname⟩ := hreplaces.path
        obtain ⟨user', hroute', hkey⟩ := hconcerns
        rw [hroute] at hroute'
        cases hroute'
        exact Option.some.inj (hname.symm.trans hkey)
      exact h.store.trans hrewritten
    · exact hsame ▸ h.store

/-- The same requests, perhaps at other times, and in the second history some more about the preferences
of the user with this key. -/
inductive Interposed (s : Server) (key : String) : List Visit → List Visit → Prop
  | nil : Interposed s key [] []
  | same {v v' : Visit} {visits visits' : List Visit} (hv : v'.Repeats v)
      (hrest : Interposed s key visits visits') : Interposed s key (v :: visits) (v' :: visits')
  | more {v : Visit} {visits visits' : List Visit} (hconcerns : s.Concerns v.request key)
      (hrest : Interposed s key visits visits') : Interposed s key visits (v :: visits')

/-- Servers that get the requests of the one and the other history agree in the end. -/
theorem AgreeBut.after {start : Server} {visits visits' : List Visit} (h : AgreeBut key s s')
    (hs : s.Sound) (hs' : s'.Sound) (hstart : Twins start s)
    (hvisits : start.Interposed key visits visits') :
    AgreeBut key (s.after visits) (s'.after visits') := by
  induction hvisits generalizing s s' with
  | nil => exact h
  | @same v v' _ _ hv _ ih =>
    exact ih (h.outcome hv.request) (hs.outcome v) (hs'.outcome v')
      (hstart.trans (twins_outcome v s))
  | @more v _ _ hconcerns _ ih =>
    -- Only the second server moves on, and it still routes requests as at the start.
    refine ih (h.outcome_right ?_) hs (hs'.outcome v) hstart
    rw [Concerns, (hstart.trans h.toTwins).route_eq]
    exact hconcerns

/-! ### Notifications -/

theorem retold_eventNotifications (h : AgreeBut key s s') (hs : s.Sound) {e e' : Event}
    (he : e.content = e'.content) (htype : e'.context.type = e.context.type) :
    List.Forall₂ Notification.Retold (s.eventNotifications e) (s'.eventNotifications e') := by
  have hrun := Processor.runOn_under hs.processors h.store hs.reads he []
  unfold eventNotifications Processor.runChain
  rw [h.processors]
  rw [List.map_nil] at hrun
  rw [hrun]
  cases hmade : (Processor.runOn s.store e s.processors []).value with
  | error failure => exact .nil
  | ok ns =>
    have habout := Processor.about_runChain hs.processors hmade
    refine List.forall₂_map_right_iff.mpr (List.forall₂_same.mpr fun n hn => ⟨rfl, ?_⟩)
    rw [habout n hn]
    exact htype

theorem retold_submissionNotifications (h : AgreeBut key s s') (hs : s.Sound) (hv : v'.Repeats v)
    (name : String) (submission : Submission) :
    List.Forall₂ Notification.Retold (s.submissionNotifications name v.arrival submission)
      (s'.submissionNotifications name v'.arrival submission) := by
  unfold submissionNotifications
  rw [h.sources]
  cases hsource : s.sources.get? name with
  | none => exact .nil
  | some source =>
    have hbuiltIn := hs.sources source (Dictionary.mem_values_of_get? hsource)
    have hread := Source.sameContent_read hbuiltIn hv.id_ne_empty hv.id_ne_empty' submission
    have htype : ∀ e e', (source.read v.arrival submission).value = .ok (some e) →
        (source.read v'.arrival submission).value = .ok (some e') →
        e'.context.type = e.context.type :=
      fun e e' => Source.type_eq_of_read hbuiltIn
    dsimp only
    generalize (source.read v.arrival submission).value = result at hread htype ⊢
    generalize (source.read v'.arrival submission).value = result' at hread htype ⊢
    cases hread with
    | error failure => exact .nil
    | none => exact .nil
    | event he => exact retold_eventNotifications h hs he (htype _ _ rfl rfl)

/-- The same requests call for the same notifications. -/
theorem retold_requestNotifications (h : AgreeBut key s s') (hs : s.Sound) (hv : v'.Repeats v) :
    List.Forall₂ Notification.Retold (s.requestNotifications v.arrival v.request)
      (s'.requestNotifications v'.arrival v'.request) := by
  unfold requestNotifications postedNotifications
  rw [hv.request, h.route_eq]
  split
  · rename_i segment _
    split
    · split
      · exact .nil
      · rename_i name _
        split
        · exact .nil
        · exact retold_submissionNotifications h hs hv name _
    · exact .nil
  · exact .nil

theorem retold_pairs {ns ns' : List Notification} (h : List.Forall₂ Notification.Retold ns ns')
    (keys : List String) :
    List.Forall₂ (fun p p' => p.1.Retold p'.1 ∧ p'.2 = p.2) (pairs keys ns) (pairs keys ns') := by
  refine List.rel_flatMap h fun n n' hn => ?_
  exact List.forall₂_map_left_iff.mpr (List.forall₂_map_right_iff.mpr
    (List.forall₂_same.mpr fun _ _ => ⟨hn, rfl⟩))

/-! ### Turns -/

/-- What is related comes from the lists. -/
theorem forall₂_and_mem {α β : Type} {R : α → β → Prop} {xs : List α} {ys : List β}
    (h : List.Forall₂ R xs ys) : List.Forall₂ (fun x y => (x ∈ xs ∧ y ∈ ys) ∧ R x y) xs ys :=
  List.forall₂_iff_zip.mpr
    ⟨h.length_eq, fun hmem => ⟨List.of_mem_zip hmem, List.forall₂_zip h hmem⟩⟩

/-- The recipient is found to be the one user by both servers or by neither. -/
theorem AgreeBut.resolvesTo_iff (h : AgreeBut key s s') (hs : s.Sound) {n n' : Notification}
    (hn : n.Retold n') : s.ResolvesTo n key ↔ s'.ResolvesTo n' key := by
  have hfind := h.store.alike_find (hs.reads n.recipient)
  unfold ResolvesTo
  rw [hn.recipient]
  generalize (s.store.find n.recipient).value = x at hfind ⊢
  generalize (s'.store.find n.recipient).value = x' at hfind ⊢
  cases hfind with
  | ok hu => simp [hu.key]
  | error e => simp

/-- Whoever is not the one user wants the same of both servers. -/
theorem AgreeBut.value_wants_eq (h : AgreeBut key s s') (hs : s.Sound) {n n' : Notification}
    (hn : n.Retold n') (hnot : ¬s.ResolvesTo n key) (transport : String) :
    (s'.preferences.wants n' transport).value = (s.preferences.wants n transport).value := by
  have hstored : (Provider.storedWish s'.store n' transport).value =
      (Provider.storedWish s.store n transport).value := by
    have hfind := h.store.alike_find (hs.reads n.recipient)
    unfold ResolvesTo at hnot
    unfold Provider.storedWish
    rw [hn.recipient, hn.type]
    split
    · rfl
    · rw [Logged.value_bind, Logged.value_bind]
      generalize (s.store.find n.recipient).value = x at hfind hnot ⊢
      generalize (s'.store.find n.recipient).value = x' at hfind ⊢
      cases hfind with
      | @ok u u' hu =>
        rw [hu.eq fun hkey => hnot ⟨u, rfl, hkey⟩]
      | error e => rfl
  have hfallback := Provider.value_wants_withStore hn.recipient hn.type hstored s.fallback hs.fallback
  rw [preferences, preferences, defaultPreference, defaultPreference, h.fallback]
  simp only [Provider.wants, Provider.value_firstOpinion_cons, hstored, hfallback]
  rfl

/-- These turns are those of the same transport with the same notification. If the recipient is not found
to be the one user, they end alike, unless one of the requests is called off. -/
structure Matches (key : String) (s s' : Server) (v v' : Visit) (turn turn' : Turn) : Prop where
  transport : turn'.transport = turn.transport
  notification : turn.notification.Retold turn'.notification
  resolves : s.ResolvesTo turn.notification key ↔ s'.ResolvesTo turn'.notification key
  fate : ¬s.ResolvesTo turn.notification key → turn'.fate = turn.fate ∨
    turn.fate = .calledOff ∧ v.CalledOff s ∨ turn'.fate = .calledOff ∧ v'.CalledOff s'

/-- What was done in the turns is up to what the recipient wants, unless they were called off. -/
theorem fate_eq_of_heeds {preferences preferences' : Provider} {turn turn' : Turn}
    (h : turn.Heeds preferences) (h' : turn'.Heeds preferences')
    (hwants : (preferences'.wants turn'.notification turn'.transport).value =
      (preferences.wants turn.notification turn.transport).value)
    (hgoes : turn.fate ≠ .calledOff) (hgoes' : turn'.fate ≠ .calledOff) :
    turn'.fate = turn.fate := by
  have hiff := h.given_iff hgoes
  have hiff' := h'.given_iff hgoes'
  rw [hwants, ← hiff] at hiff'
  cases hfate : turn.fate with
  | calledOff => exact absurd hfate hgoes
  | given => exact hiff'.mpr hfate
  | declined =>
    rw [hfate] at hiff'
    cases hfate' : turn'.fate with
    | calledOff => exact absurd hfate' hgoes'
    | given => exact absurd (hiff'.mp hfate') nofun
    | declined => rfl

/-- The same request gives the transports the same turns. -/
theorem matching_turns (h : AgreeBut key s s') (hs : s.Sound) (hs' : s'.Sound) (hv : v'.Repeats v) :
    ∃ turns turns', v.HasTurns s turns ∧ v'.HasTurns s' turns' ∧
      List.Forall₂ (Matches key s s' v v') turns turns' := by
  obtain ⟨turns, hturns, hheeds, hcalledOff⟩ := v.exists_hasTurns s
  obtain ⟨turns', hturns', hheeds', hcalledOff'⟩ := v'.exists_hasTurns s'
  refine ⟨turns, turns', hturns, hturns', ?_⟩
  have hpairs := retold_pairs (retold_requestNotifications h hs hv) s.transportKeys
  have hcomplete := hturns.complete (isSome_outcome hs.prompt v)
  have hcomplete' := hturns'.complete (isSome_outcome hs'.prompt v')
  rw [h.transports] at hcomplete'
  rw [← hcomplete, ← hcomplete', List.forall₂_map_left_iff, List.forall₂_map_right_iff] at hpairs
  refine (forall₂_and_mem hpairs).imp ?_
  rintro turn turn' ⟨⟨hturn, hturn'⟩, hretold, htransport⟩
  refine ⟨htransport, hretold, h.resolvesTo_iff hs hretold, fun hnot => ?_⟩
  by_cases hfate : turn.fate = .calledOff
  · exact .inr (.inl ⟨hfate, hcalledOff turn hturn hfate⟩)
  · by_cases hfate' : turn'.fate = .calledOff
    · exact .inr (.inr ⟨hfate', hcalledOff' turn' hturn' hfate'⟩)
    · have hwants := h.value_wants_eq hs hretold hnot turn'.transport
      refine .inl (fate_eq_of_heeds (hheeds turn hturn) (hheeds' turn' hturn') ?_ hfate hfate')
      rw [← show turn'.transport = turn.transport from htransport]
      exact hwants

/-! ### Pushes -/

/-- These are dispatches of the same notification to the same transports. If the recipient is not found to
be the one user, it is pushed over the same of them, unless one of the requests is called off. -/
structure SentAlike (key : String) (s s' : Server) (v v' : Visit) (d d' : Dispatch) : Prop where
  notification : d.notification.Retold d'.notification
  resolves : s.ResolvesTo d.notification key ↔ s'.ResolvesTo d'.notification key
  keys : d'.keys = d.keys
  pushes : ¬s.ResolvesTo d.notification key → List.Forall₂ (fun visit visit' =>
    (visit'.Pushes s'.preferences d'.notification v'.token ↔
        visit.Pushes s.preferences d.notification v.token) ∨
      visit.IsLate v.token ∧ v.CalledOff s ∨ visit'.IsLate v'.token ∧ v'.CalledOff s')
    d.visits d'.visits

/-- Who wants the same is sent the same in time. -/
theorem pushes_iff_of_heeds {preferences preferences' : Provider} {n n' : Notification}
    {token token' : Token} {visit visit' : Herald.Visit} (h : visit.Heeds preferences n token)
    (h' : visit'.Heeds preferences' n' token')
    (hwants : (preferences'.wants n' visit'.transport.key).value =
      (preferences.wants n visit.transport.key).value)
    (hgoes : ¬visit.IsLate token) (hgoes' : ¬visit'.IsLate token') :
    visit'.Pushes preferences' n' token' ↔ visit.Pushes preferences n token := by
  rw [h.pushes_iff, h'.pushes_iff]
  unfold Visit.IsInvoked Visit.IsUnwanted
  rw [hwants]
  exact and_congr_left' (iff_of_true hgoes' hgoes)

/-- Dispatches of the same notification to the same transports push it over the same of them. -/
theorem AgreeBut.sentAlike (h : AgreeBut key s s') (hs : s.Sound) {d d' : Dispatch}
    (hn : d.notification.Retold d'.notification) (hkeys : d'.keys = d.keys)
    (hheeds : ∀ visit ∈ d.visits, visit.Heeds s.preferences d.notification v.token)
    (hheeds' : ∀ visit ∈ d'.visits, visit.Heeds s'.preferences d'.notification v'.token)
    (hcalledOff : ∀ visit ∈ d.visits, visit.IsLate v.token → v.CalledOff s)
    (hcalledOff' : ∀ visit ∈ d'.visits, visit.IsLate v'.token → v'.CalledOff s') :
    SentAlike key s s' v v' d d' where
  notification := hn
  resolves := h.resolvesTo_iff hs hn
  keys := hkeys
  pushes hnot := by
    have hsame : List.Forall₂ (fun key key' => key = key') d.keys d'.keys := by
      rw [List.forall₂_eq_eq_eq, hkeys]
    rw [Dispatch.keys, Dispatch.keys, List.forall₂_map_left_iff, List.forall₂_map_right_iff] at hsame
    refine (forall₂_and_mem hsame).imp ?_
    rintro visit visit' ⟨⟨hvisit, hvisit'⟩, hkey⟩
    by_cases hlate : visit.IsLate v.token
    · exact .inr (.inl ⟨hlate, hcalledOff visit hvisit hlate⟩)
    · by_cases hlate' : visit'.IsLate v'.token
      · exact .inr (.inr ⟨hlate', hcalledOff' visit' hvisit' hlate'⟩)
      · refine .inl (pushes_iff_of_heeds (hheeds visit hvisit) (hheeds' visit' hvisit') ?_ hlate
          hlate')
        rw [hkey]
        exact h.value_wants_eq hs hn hnot visit'.transport.key

/-- The same event has the same dispatches. -/
theorem matching_dispatches (h : AgreeBut key s s') (hs : s.Sound) (hs' : s'.Sound)
    (hv : v'.Repeats v) (hsubmits : v.Submits s) :
    ∃ dispatches dispatches', v.Delivers s dispatches ∧ v'.Delivers s' dispatches' ∧
      List.Forall₂ (SentAlike key s s' v v') dispatches dispatches' := by
  have hsubmits' : v'.Submits s' := by
    rw [Visit.Submits, hv.request, h.route_eq]
    exact hsubmits
  obtain ⟨dispatches, hdelivers⟩ := Visit.exists_delivers hsubmits
  obtain ⟨dispatches', hdelivers'⟩ := Visit.exists_delivers hsubmits'
  refine ⟨dispatches, dispatches', hdelivers, hdelivers', ?_⟩
  obtain ⟨hall, hkeys⟩ := hdelivers.complete (isSome_outcome hs.prompt v)
  obtain ⟨hall', hkeys'⟩ := hdelivers'.complete (isSome_outcome hs'.prompt v')
  have hretold := retold_requestNotifications h hs hv
  rw [← hall, ← hall', List.forall₂_map_left_iff, List.forall₂_map_right_iff] at hretold
  refine (forall₂_and_mem hretold).imp ?_
  rintro d d' ⟨⟨hd, hd'⟩, hn⟩
  refine h.sentAlike hs hn ?_ (hdelivers.heeds d hd) (hdelivers'.heeds d' hd')
    (hdelivers.calledOff d hd) (hdelivers'.calledOff d' hd')
  rw [hkeys d hd, hkeys' d' hd', h.transports]

/-! ### Discretion -/

/-- What one user prefers shows nowhere else. If a server gets some more requests about the preferences of
this user, it still answers all other requests the same, and pushes all notifications over the same
transports, except where the user is found to be the recipient. -/
theorem preferences_show_to_their_user_only (s : Server) (hs : s.Sound) (key : String)
    (visits visits' : List Visit) (hvisits : s.Interposed key visits visits') (v v' : Visit)
    (hv : v'.Repeats v) :
    ((s.Concerns v.request key → isReading v.request.method = false) →
      ∃ x, (v.outcome (s.after visits)).1 = some x ∧ (v'.outcome (s.after visits')).1 = some x) ∧
    (∃ turns turns', v.HasTurns (s.after visits) turns ∧ v'.HasTurns (s.after visits') turns' ∧
      List.Forall₂ (Matches key (s.after visits) (s.after visits') v v') turns turns') ∧
    (v.Submits (s.after visits) → ∃ dispatches dispatches',
      v.Delivers (s.after visits) dispatches ∧ v'.Delivers (s.after visits') dispatches' ∧
        List.Forall₂ (SentAlike key (s.after visits) (s.after visits') v v') dispatches
          dispatches') := by
  have hagree := (AgreeBut.refl key s).after hs hs (.refl s) hvisits
  have hsound := hs.after visits
  have hsound' := hs.after visits'
  refine ⟨fun hother => ?_, matching_turns hagree hsound hsound' hv,
    matching_dispatches hagree hsound hsound' hv⟩
  refine response_eq hagree hsound hsound' hv fun hconcerns => hother ?_
  rw [Concerns, route_after] at hconcerns
  exact hconcerns

/-! An example: the user opts out, and then writes to somebody else. -/

/-- The user writes to somebody whom the server does not know. -/
def sampleReply (arrival : Arrival) : Visit where
  arrival
  request := ⟨"POST", "/event/example", [], Text.Utf8.encode
    "\x7b\"from\":\"ada\",\"to\":\"bob@example.org\",\"comment\":\"hi\"\x7d"⟩
  timeline := .start none

theorem preferences_show_to_their_user_only_sample :
    sampleServer.Sound ∧ sampleServer.Interposed "ada" [] [samplePut] ∧
      (sampleReply sampleArrival).Submits sampleServer ∧
      (∃ turns turns', (sampleReply sampleArrival).HasTurns sampleServer turns ∧
        (sampleReply ⟨"2", sampleArrival.time⟩).HasTurns (sampleServer.after [samplePut]) turns' ∧
        List.Forall₂ (fun turn turn' => turn'.transport = turn.transport ∧
          (¬sampleServer.ResolvesTo turn.notification "ada" → turn'.fate = turn.fate))
          turns turns') ∧
      ∃ dispatches dispatches', (sampleReply sampleArrival).Delivers sampleServer dispatches ∧
        (sampleReply ⟨"2", sampleArrival.time⟩).Delivers (sampleServer.after [samplePut])
          dispatches' ∧
        List.Forall₂ (fun d d' => d'.keys = d.keys ∧
          (¬sampleServer.ResolvesTo d.notification "ada" → List.Forall₂ (fun visit visit' =>
            visit'.Pushes (sampleServer.after [samplePut]).preferences d'.notification
                (sampleReply ⟨"2", sampleArrival.time⟩).token ↔
              visit.Pushes sampleServer.preferences d.notification
                (sampleReply sampleArrival).token) d.visits d'.visits)) dispatches dispatches' := by
  have hsound : sampleServer.Sound := by
    refine ⟨by decide, by decide, rfl, rfl, fun candidates id _ fault hfault => ?_⟩
    exact absurd (UserStore.isNotFound_of_resolve hfault) nofun
  have hvisits : sampleServer.Interposed "ada" [] [samplePut] :=
    .more ⟨"ada", by decide, segmentName_ada⟩ .nil
  have hagain : (sampleReply ⟨"2", sampleArrival.time⟩).Repeats (sampleReply sampleArrival) :=
    ⟨rfl, sampleArrival_id_ne_empty, by decide⟩
  have hgoes : (sampleReply sampleArrival).Goes := ⟨by decide, by decide⟩
  have hgoes' : (sampleReply ⟨"2", sampleArrival.time⟩).Goes := ⟨by decide, by decide⟩
  have hsubmits : (sampleReply sampleArrival).Submits sampleServer := ⟨rfl, "example", by decide⟩
  obtain ⟨-, ⟨turns, turns', hturns, hturns', hmatch⟩, hpushes⟩ :=
    preferences_show_to_their_user_only sampleServer hsound "ada" [] [samplePut] hvisits _ _ hagain
  obtain ⟨dispatches, dispatches', hdelivers, hdelivers', halike⟩ := hpushes hsubmits
  refine ⟨hsound, hvisits, hsubmits,
    ⟨turns, turns', hturns, hturns', hmatch.imp fun turn turn' h => ⟨h.transport, fun hnot => ?_⟩⟩,
    dispatches, dispatches', hdelivers, hdelivers', halike.imp fun d d' h =>
      ⟨h.keys, fun hnot => (h.pushes hnot).imp fun visit visit' hsent => ?_⟩⟩
  · obtain heq | ⟨-, hcalledOff⟩ | ⟨-, hcalledOff⟩ := h.fate hnot
    · exact heq
    · exact absurd hcalledOff (hgoes.not_calledOff _)
    · exact absurd hcalledOff (hgoes'.not_calledOff _)
  · obtain hiff | ⟨-, hcalledOff⟩ | ⟨-, hcalledOff⟩ := hsent
    · exact hiff
    · exact absurd hcalledOff (hgoes.not_calledOff _)
    · exact absurd hcalledOff (hgoes'.not_calledOff _)

end Server

end Herald
