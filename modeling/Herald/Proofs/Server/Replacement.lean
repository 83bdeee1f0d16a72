import Herald.Http.Wire
import Herald.Proofs.Server.Discretion
import Herald.Proofs.Server.Preferences

/-!
Replacing preferences and looking at them. A request that fails leaves the server as it was. Otherwise
the preferences are stored as they were sent, and are shown from then on. Whatever is shown may be sent
back, and all that is shown later stays the same.
-/

namespace Herald

/-- The bytes that go out with a response. -/
def Http.Response.body (x : Http.Response) : List UInt8 :=
  Text.Utf8.encode x.content.typed.2

namespace Server

variable {s s' : Server} {key segment : String} {m : PreferenceMap} {v v' : Visit}

theorem outcome_of_preferences (hroute : s.route v.request = some (.preferences segment))
    (hmethod : v.request.method = "GET" ∨ v.request.method = "PUT") :
    (v.outcome s).1 = some (answerPreferences segment v.request s).value.1 ∧
      (v.outcome s).2.1 = (answerPreferences segment v.request s).value.2 := by
  have hallows : (Route.preferences segment).allows v.request.method := by
    obtain hget | hput := hmethod
    · rw [hget]
      rfl
    · rw [hput]
      rfl
  have hbody : v.request.method ≠ "HEAD" := by
    obtain hget | hput := hmethod
    · simp [hget]
    · simp [hput]
  rw [Visit.outcome, handle_of_allows v.arrival v.timeline hroute hallows]
  simp only [answer, Option.map_some, if_neg hbody, and_self]

/-! ### Replacing -/

/-- What a request to replace the preferences of whoever a segment names is answered, and the server that
it leaves. The body is looked at only if the segment is a name and the body is not too large, and the
store only if the body is understood. -/
inductive PutVerdict (s : Server) (segment : String) (body : List UInt8) :
    Http.Response → Server → Prop
  | badName (hname : Http.segmentName segment = none) : PutVerdict s segment body (badSegment "key") s
  | tooLarge {key : String} (hname : Http.segmentName segment = some key)
      (hsize : largestBody < body.length) : PutVerdict s segment body tooLarge s
  | malformed {key : String} {fault : Json.Fault} (hname : Http.segmentName segment = some key)
      (hsize : body.length ≤ largestBody)
      (hbody : Json.decodeBytes preferencesDecoder body = .error fault) :
      PutVerdict s segment body (.plain .badRequest s!"malformed preferences: {fault.message}") s
  | failing {key : String} {m : PreferenceMap} {e : UserError}
      (hname : Http.segmentName segment = some key) (hsize : body.length ≤ largestBody)
      (hbody : Json.decodeBytes preferencesDecoder body = .ok m)
      (hreach : s.store.reach key = .error e) :
      PutVerdict s segment body (.plain .internalError s!"user store error: {e.message}") s
  | unknown {key : String} {m : PreferenceMap} (hname : Http.segmentName segment = some key)
      (hsize : body.length ≤ largestBody) (hbody : Json.decodeBytes preferencesDecoder body = .ok m)
      (hreach : s.store.reach key = .ok ()) (hkey : key ∉ s.store.keys) :
      PutVerdict s segment body (.plain .notFound s!"user not found: {key}") s
  /-- The preferences are those of the user from then on, and nothing else is changed. -/
  | stored {key : String} {m : PreferenceMap} {store : UserStore}
      (hname : Http.segmentName segment = some key) (hsize : body.length ≤ largestBody)
      (hbody : Json.decodeBytes preferencesDecoder body = .ok m)
      (hreach : s.store.reach key = .ok ()) (hkey : key ∈ s.store.keys)
      (hupdated : s.store.Updated key m store)
      (hrereads : UserStore.Rereads m (s.store.identifiersFault? key) (s.store.get key)
        (store.get key)) :
      PutVerdict s segment body (shownPreferences (s.hydrate m).value) { s with store }

theorem value_storeFailure_of_reach {e : UserError} (h : s.store.reach key = .error e) :
    (storeFailure key e).value = .plain .internalError s!"user store error: {e.message}" := by
  rw [storeFailure, UserStore.isNotFound_of_reach h]
  rfl

theorem putVerdict_replacePreferences {body : List UInt8}
    (hname : Http.segmentName segment = some key) (hsize : body.length ≤ largestBody) :
    s.PutVerdict segment body (replacePreferences key body s).value.1
      (replacePreferences key body s).value.2 := by
  unfold replacePreferences
  cases hbody : Json.decodeBytes preferencesDecoder body with
  | error fault => exact .malformed hname hsize hbody
  | ok m =>
    dsimp only
    cases hreach : s.store.reach key with
    | error e =>
      rw [UserStore.setPreferences_of_reach_error hreach, Logged.value_bind, Logged.value_pure,
        value_storeFailure_of_reach hreach]
      exact .failing hname hsize hbody hreach
    | ok =>
      by_cases hkey : key ∈ s.store.keys
      · obtain ⟨store, hset⟩ := UserStore.exists_setPreferences hreach hkey m
        have hupdated := UserStore.updated_of_setPreferences hset
        rw [hset]
        simp only [Logged.value_bind, Logged.value_pure, hydrate_store]
        exact .stored hname hsize hbody hreach hkey hupdated (hupdated.rereads hreach)
      · rw [UserStore.setPreferences_of_notMem hreach hkey]
        exact .unknown hname hsize hbody hreach hkey

theorem putVerdict_outcome (hmethod : v.request.method = "PUT")
    (hroute : s.route v.request = some (.preferences segment)) :
    ∃ x, (v.outcome s).1 = some x ∧ s.PutVerdict segment v.request.body x (v.outcome s).2.1 := by
  obtain ⟨hanswer, hserver⟩ := outcome_of_preferences hroute (.inr hmethod)
  refine ⟨_, hanswer, ?_⟩
  rw [hserver]
  unfold answerPreferences
  cases hname : Http.segmentName segment with
  | none => exact .badName hname
  | some key =>
    dsimp only
    rw [if_pos hmethod]
    split
    · rename_i hlarge
      exact .tooLarge hname hlarge
    · rename_i hsmall
      exact putVerdict_replacePreferences hname (Nat.not_lt.mp hsmall)

/-! ### Looking -/

/-- The visit is to look at the preferences of the user with this key. -/
structure Visit.Asks (v : Visit) (s : Server) (key : String) : Prop where
  method : v.request.method = "GET"
  concerns : s.Concerns v.request key

theorem outcome_of_asks (h : v.Asks s key) :
    (v.outcome s).1 = some (showPreferences key s).value ∧ (v.outcome s).2.1 = s := by
  obtain ⟨segment, hroute, hname⟩ := h.concerns
  obtain ⟨hanswer, hserver⟩ := outcome_of_preferences hroute (.inl h.method)
  have hput : v.request.method ≠ "PUT" := by simp [h.method]
  rw [hanswer, hserver, answerPreferences, hname]
  simp only [if_neg hput, Logged.value_bind, Logged.value_pure, and_self]

theorem after_of_asks (h : v.Asks s key) : s.after [v] = s :=
  (outcome_of_asks h).2

theorem Visit.Asks.of_twins (h : v.Asks s key) (htwins : Twins s s') : v.Asks s' key := by
  refine ⟨h.method, ?_⟩
  rw [Concerns, htwins.route_eq]
  exact h.concerns

theorem Visit.Asks.of_request (h : v.Asks s key) (hrequest : v'.request = v.request) :
    v'.Asks s key := by
  refine ⟨hrequest ▸ h.method, ?_⟩
  rw [hrequest]
  exact h.concerns

/-! ### Looking at what was sent -/

/-- Where preferences were replaced they were stored, and the answer shows them. -/
theorem exists_stored_of_replaces (h : v.Replaces s key) :
    ∃ m store, (v.outcome s).1 = some (shownPreferences (s.hydrate m).value) ∧
      (v.outcome s).2.1 = { s with store } ∧
      UserStore.Rereads m (s.store.identifiersFault? key) (s.store.get key) (store.get key) := by
  obtain ⟨segment, hroute, hname⟩ := h.path
  obtain ⟨x, hx, hverdict⟩ := putVerdict_outcome h.method hroute
  have hstatus := h.status
  rw [hx] at hstatus ⊢
  generalize (v.outcome s).2.1 = after at hverdict ⊢
  cases hverdict with
  | stored hname' hsize hbody hreach hkey hupdated hrereads =>
    obtain rfl : key = _ := Option.some.inj (hname.symm.trans hname')
    exact ⟨_, _, rfl, rfl, hrereads⟩
  | _ => cases hstatus

theorem value_showPreferences_of_error {e : UserError} (h : s.store.get key = .error e) :
    showPreferences key s = storeFailure key e := by
  rw [showPreferences, h]

/-- What was sent is shown, unless the identifiers of the user cannot be read. -/
theorem shown_after_replaces {get : Visit} (h : v.Replaces s key) (hget : get.Asks s key) :
    (get.outcome (s.after [v])).1 = match s.store.identifiersFault? key with
      | none => (v.outcome s).1
      | some fault =>
        some (.plain .internalError s!"user store error: {(UserError.badRecord fault).message}") := by
  obtain ⟨m, store, hanswer, hserver, hrereads⟩ := exists_stored_of_replaces h
  have hafter : s.after [v] = { s with store } := hserver
  rw [(outcome_of_asks (hget.of_twins (twins_after s [v]))).1, hanswer, hafter]
  generalize s.store.identifiersFault? key = unreadable at hrereads ⊢
  generalize s.store.get key = before at hrereads
  generalize hnow : store.get key = now at hrereads
  cases hrereads with
  | read u =>
    have hshown := @value_showPreferences { s with store } { u with preferences := m } key hnow
    rw [hydrate_store] at hshown
    exact congrArg some hshown
  | @repaired _ u hu =>
    have hshown := @value_showPreferences { s with store } u key hnow
    rw [hydrate_store, hu] at hshown
    exact congrArg some hshown
  | unread fault =>
    rw [value_showPreferences_of_error hnow]
    rfl

/-! ### Sending back what was shown -/

theorem decoder_shownPreferences (m : PreferenceMap) :
    preferencesDecoder (Json.object [("preferences", m.toJson)]).toTree = .ok m := by
  have hread : preferencesRecord.read {} (Json.object [("preferences", m.toJson)]).toTree =
      .ok ⟨some m⟩ := by
    simp [Json.toTree, Json.membersOf, Json.Record.read, Json.Decoder.members, preferencesRecord,
      PreferencesDraft.assign, Json.once]
    rfl
  rw [preferencesDecoder, hread]
  rfl

theorem decodeBytes_body (m : PreferenceMap) :
    Json.decodeBytes preferencesDecoder (shownPreferences m).body = .ok m := by
  have hnumberless : (Json.object [("preferences", m.toJson)]).numberless := by
    simp [Json.numberless, Json.membersNumberless, m.toJson_numberless]
  rw [Http.Response.body, Json.decodeBytes_encode]
  exact Json.decodeText_text hnumberless (decoder_shownPreferences m)

theorem exists_text_storeFailure (key : String) (e : UserError) : ∃ text,
    (storeFailure key e).value.content = .text text ∧ text.toList.head? = some 'u' := by
  unfold storeFailure
  split
  · refine ⟨_, rfl, ?_⟩
    rw [String.toList_append]
    rfl
  · refine ⟨_, rfl, ?_⟩
    rw [String.toList_append]
    rfl

/-- What is said about a failure is no JSON. -/
theorem decodeBytes_body_storeFailure (key : String) (e : UserError) (m : PreferenceMap) :
    Json.decodeBytes preferencesDecoder (storeFailure key e).value.body ≠ .ok m := by
  obtain ⟨text, htext, hhead⟩ := exists_text_storeFailure key e
  obtain ⟨rest, hletters⟩ := List.head?_eq_some_iff.mp hhead
  have htree : (Json.Document.read (.ofString text)).tree = .broken := by
    rw [Json.Input.ofString, hletters]
    rfl
  rw [Http.Response.body, Json.decodeBytes_encode, htext]
  intro h
  obtain ⟨hdecode, -⟩ := Json.decodeInput_eq_ok_iff.mp h
  simp only [Http.Content.typed, htree] at hdecode
  cases hdecode

/-- The servers differ at most in what the one user prefers, and show the same of it. -/
structure ShowsAlike (key : String) (s s' : Server) : Prop extends AgreeBut key s s' where
  shown : s'.store = s.store ∨ ∃ u u', s.store.get key = .ok u ∧ s'.store.get key = .ok u' ∧
    (s.hydrate u'.preferences).value = (s.hydrate u.preferences).value

theorem ShowsAlike.value_showPreferences_eq (h : ShowsAlike key s s') :
    (showPreferences key s').value = (showPreferences key s).value := by
  obtain hsame | ⟨u, u', hget, hget', hshown⟩ := h.shown
  · unfold showPreferences
    rw [hsame]
    cases s.store.get key with
    | error e => rfl
    | ok u =>
      dsimp only
      rw [h.hydrate_eq]
  · rw [value_showPreferences hget, value_showPreferences hget', h.hydrate_eq, hshown]

/-- The same request has the servers go on to show the same. -/
theorem ShowsAlike.outcome (h : ShowsAlike key s s') (hrequest : v'.request = v.request) :
    ShowsAlike key (v.outcome s).2.1 (v'.outcome s').2.1 where
  toAgreeBut := h.toAgreeBut.outcome hrequest
  shown := by
    have hhydrate : ∀ m, (v.outcome s).2.1.hydrate m = s.hydrate m := (twins_outcome v s).hydrate_eq
    simp only [hhydrate]
    obtain ⟨name, m, hset, hset'⟩ | ⟨hsame, hsame'⟩ := h.stores_outcome hrequest
    · obtain heq | ⟨u, u', hget, hget', hshown⟩ := h.shown
      · rw [heq, hset] at hset'
        exact .inl (Except.ok.inj hset').symm
      · -- Either both now hold what was sent for the user, or the user is not concerned.
        by_cases hname : key = name
        · subst hname
          exact .inr ⟨_, _, UserStore.get_of_setPreferences hset hget,
            UserStore.get_of_setPreferences hset' hget', rfl⟩
        · rw [(UserStore.Rewritten.of_setPreferences hset).get_eq hname,
            (UserStore.Rewritten.of_setPreferences hset').get_eq hname]
          exact .inr ⟨u, u', hget, hget', hshown⟩
    · rw [hsame, hsame']
      exact h.shown

theorem ShowsAlike.after {visits visits' : List Visit} (h : ShowsAlike key s s')
    (hsame : List.Forall₂ (fun v v' => v'.request = v.request) visits visits') :
    ShowsAlike key (s.after visits) (s'.after visits') := by
  induction hsame generalizing s s' with
  | nil => exact h
  | cons hrequest _ ih => exact ih (h.outcome hrequest)

/-- Sending back what is shown changes nothing that is shown. -/
theorem ShowsAlike.of_sent_back (hmethod : v.request.method = "PUT")
    (hconcerns : s.Concerns v.request key)
    (hbody : v.request.body = (showPreferences key s).value.body) :
    ShowsAlike key s (v.outcome s).2.1 where
  toAgreeBut := (AgreeBut.refl key s).outcome_right hconcerns
  shown := by
    obtain ⟨segment, hroute, hname⟩ := hconcerns
    obtain ⟨_, -, hverdict⟩ := putVerdict_outcome hmethod hroute
    generalize (v.outcome s).2.1 = after at hverdict ⊢
    cases hverdict with
    | @stored _ m store hname' hsize hdecode hreach hkey hupdated hrereads =>
      obtain rfl : key = _ := Option.some.inj (hname.symm.trans hname')
      rw [hbody] at hdecode
      cases hget : s.store.get key with
      | error e =>
        rw [value_showPreferences_of_error hget] at hdecode
        exact absurd hdecode (decodeBytes_body_storeFailure key e m)
      | ok u =>
        rw [value_showPreferences hget, decodeBytes_body] at hdecode
        obtain rfl := Except.ok.inj hdecode
        rw [hget] at hrereads
        generalize s.store.identifiersFault? key = unreadable at hrereads
        generalize store.get key = now at hrereads ⊢
        cases hrereads
        exact .inr ⟨u, _, rfl, rfl, PreferenceMap.hydrate_hydrate _ _ _ _⟩
    | _ => exact .inl rfl

/-! ### Histories -/

/-- Whoever is spared is shown the same. -/
theorem value_showPreferences_after {visits : List Visit} (h : s.Spares key visits) :
    (showPreferences key (s.after visits)).value = (showPreferences key s).value := by
  have hget : (s.after visits).store.get key = s.store.get key :=
    (rewritten_after s visits).get_eq (not_not.mpr h)
  unfold showPreferences
  rw [hget]
  cases s.store.get key with
  | error e => rfl
  | ok u =>
    dsimp only
    rw [(twins_after s visits).hydrate_eq]

/-- What is sent for the user with this key is shown, and what is shown can be sent back. -/
structure GivesBack (s : Server) (key : String) : Prop where
  /-- Until preferences are sent again a look at them is answered as the request that sent them was. A
  look at a user whose identifiers cannot be read fails. -/
  put_get : ∀ (put get : Visit) (between : List Visit), put.Replaces s key →
    (s.after [put]).Spares key between → get.Asks s key →
    (get.outcome (s.after (put :: between))).1 = match s.store.identifiersFault? key with
      | none => (put.outcome s).1
      | some fault =>
        some (.plain .internalError s!"user store error: {(UserError.badRecord fault).message}")
  /-- If an answer is sent back before preferences are sent again, every later look is answered as it
  would have been otherwise, whatever else is asked, and whenever. -/
  get_put : ∀ (get put : Visit) (x : Http.Response) (between visits visits' : List Visit)
    (later later' : Visit), get.Asks s key → (get.outcome s).1 = some x → s.Spares key between →
    put.request.method = "PUT" → s.Concerns put.request key → put.request.body = x.body →
    List.Forall₂ (fun v v' => v'.request = v.request) visits visits' →
    later.Asks s key → later'.request = later.request →
    (later'.outcome (s.after (get :: between ++ put :: visits'))).1 =
      (later.outcome (s.after (get :: between ++ visits))).1

theorem givesBack (s : Server) (key : String) : s.GivesBack key where
  put_get put get between hput hspares hget := by
    have hlater := outcome_of_asks (hget.of_twins (twins_after s (put :: between)))
    have hnow := outcome_of_asks (hget.of_twins (twins_after s [put]))
    have hsame : (get.outcome (s.after (put :: between))).1 = (get.outcome (s.after [put])).1 := by
      rw [hlater.1, hnow.1, ← value_showPreferences_after hspares]
      rfl
    rw [hsame]
    exact shown_after_replaces hput hget
  get_put get put x between visits visits' later later' hget hx hspares hmethod hconcerns hbody hsame
      hlater hrequest := by
    have hbetween : ∀ rest, s.after (get :: between ++ rest) = (s.after between).after rest := by
      intro rest
      rw [List.cons_append, after, show (get.outcome s).2.1 = s from after_of_asks hget, after_append]
    have htwins := twins_after s between
    have hshown : put.request.body = (showPreferences key (s.after between)).value.body := by
      rw [(outcome_of_asks hget).1] at hx
      rw [hbody, value_showPreferences_after hspares, Option.some.inj hx]
    have hconcerns' : (s.after between).Concerns put.request key := by
      rw [Concerns, htwins.route_eq]
      exact hconcerns
    have halike := (ShowsAlike.of_sent_back hmethod hconcerns' hshown).after hsame
    have hasks : later.Asks ((s.after between).after visits) key :=
      hlater.of_twins (htwins.trans (twins_after _ visits))
    have hasks' : later'.Asks ((s.after between).after (put :: visits')) key :=
      (hlater.of_request hrequest).of_twins (htwins.trans (twins_after _ (put :: visits')))
    rw [hbetween, hbetween, (outcome_of_asks hasks).1, (outcome_of_asks hasks').1]
    exact congrArg some halike.value_showPreferences_eq

/-- A request to replace preferences is answered by its verdict, and changes nothing unless it is
answered well. What was sent is shown from then on, if the identifiers of the user can be read, and what
is shown can be sent back. -/
theorem preferences_shown_as_sent (s : Server) :
    (∀ (put : Visit) (segment : String), put.request.method = "PUT" →
      s.route put.request = some (.preferences segment) →
      ∃ x, (put.outcome s).1 = some x ∧
        s.PutVerdict segment put.request.body x (put.outcome s).2.1) ∧
      ∀ key, s.GivesBack key :=
  ⟨fun _ _ => putVerdict_outcome, s.givesBack⟩

/-- A table in which the identifiers of the user are no JSON. -/
def obscureServer : Server :=
  { sampleServer with store := ⟨.table [⟨"ada", "\x7b\x7d", "?", "[]"⟩], none⟩ }

/-- The user looks at the preferences. -/
def sampleLook : Visit :=
  ⟨sampleArrival, sampleGet, .start none .requests⟩

/-- What was sent to a server is not always what the next look shows. -/
theorem put_not_shown : ¬∀ s : Server, s.fallback.isImpersonal → ∀ (key : String) (put get : Visit),
    put.Replaces s key → get.Asks s key →
      (get.outcome (s.after [put])).1 = (put.outcome s).1 := by
  intro hshown
  have hput : samplePut.Replaces obscureServer "ada" := replaces_samplePut (by decide) rfl
  have hlook : sampleLook.Asks obscureServer "ada" := ⟨rfl, "ada", by decide, segmentName_ada⟩
  have hsame := hshown obscureServer rfl "ada" samplePut sampleLook hput hlook
  have hfailed := shown_after_replaces hput hlook
  obtain ⟨fault, hfault⟩ : ∃ fault, obscureServer.store.identifiersFault? "ada" = some fault :=
    ⟨_, by cbv⟩
  rw [hfault] at hfailed
  have hstatus := hput.status
  rw [← hsame, hfailed] at hstatus
  cases hstatus

/-! An example: the user opts out and looks at it; or looks first, and sends back what is shown. -/

/-- The user sends back what was shown at first. -/
def sampleReturn : Visit :=
  ⟨sampleArrival, ⟨"PUT", "/users/ada/preferences", [],
    (showPreferences "ada" sampleServer).value.body⟩, .start none .requests⟩

theorem preferences_shown_as_sent_sample :
    (∃ x, (samplePut.outcome sampleServer).1 = some x ∧
        sampleServer.PutVerdict "ada" samplePut.request.body x
          (samplePut.outcome sampleServer).2.1) ∧
      samplePut.Replaces sampleServer "ada" ∧ sampleLook.Asks sampleServer "ada" ∧
      (sampleLook.outcome (sampleServer.after [samplePut])).1 = (samplePut.outcome sampleServer).1 ∧
      (sampleLook.outcome (sampleServer.after [sampleLook, sampleReturn, samplePost])).1 =
        (sampleLook.outcome (sampleServer.after [sampleLook, samplePost])).1 := by
  have hput : samplePut.Replaces sampleServer "ada" := replaces_samplePut (by decide) rfl
  have hlook : sampleLook.Asks sampleServer "ada" := ⟨rfl, "ada", by decide, segmentName_ada⟩
  obtain ⟨hverdict, hgives⟩ := preferences_shown_as_sent sampleServer
  obtain ⟨hput_get, hget_put⟩ := hgives "ada"
  refine ⟨hverdict samplePut "ada" rfl (by decide), hput, hlook, ?_, ?_⟩
  · exact hput_get samplePut sampleLook [] hput trivial hlook
  · have hconcerns : sampleServer.Concerns sampleReturn.request "ada" :=
      ⟨"ada", by decide, segmentName_ada⟩
    exact hget_put sampleLook sampleReturn _ [] [samplePost] [samplePost] sampleLook sampleLook hlook
      (outcome_of_asks hlook).1 trivial rfl hconcerns rfl (.cons rfl .nil) hlook rfl

end Server

end Herald
