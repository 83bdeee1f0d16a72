import Herald.Proofs.Dispatch.Visits
import Herald.Proofs.Preference.Hydration
import Herald.Proofs.Server.History
import Mathlib

/-!
What a user is shown is what counts. The completed preferences say yes exactly where a dispatch to the
user pushes its notification over the transport, if the default does not depend on who is asked about.
-/

namespace Herald

namespace Http.Response

/-- The response shows a yes for the event type and the transport. -/
def Shows (x : Response) (type transport : String) : Prop :=
  ∃ j, x.content = .json j ∧
    ((j.member "preferences").member type).member transport = .bool true

end Http.Response

namespace Server

variable {s : Server} {u : User}

/-! ### Defaults -/

/-- Whoever is stored, stored wishes are completed the same. -/
theorem hydrate_eq_of_fallback {s' : Server} (htypes : s'.eventTypes = s.eventTypes)
    (htransports : s'.transportKeys = s.transportKeys) (hfallback : s'.fallback = s.fallback)
    (m : PreferenceMap) : s'.hydrate m = s.hydrate m := by
  rw [hydrate, hydrate, defaultPreference, defaultPreference, htypes, htransports, hfallback]
  exact PreferenceMap.hydrate_withStore s.store s'.store m s.eventTypes s.transportKeys s.fallback

@[simp] theorem hydrate_store (s : Server) (store : UserStore) (m : PreferenceMap) :
    hydrate { s with store } m = s.hydrate m :=
  @hydrate_eq_of_fallback s { s with store } rfl rfl rfl m

theorem defaultPreference_of_isImpersonal (h : s.fallback.isImpersonal) :
    s.defaultPreference = s.fallback :=
  Provider.withStore_of_isImpersonal s.store s.fallback h

/-! ### What is shown -/

@[simp] theorem shows_shownPreferences {m : PreferenceMap} {type transport : String} :
    (shownPreferences m).Shows type transport ↔ m.wish? type transport = some true := by
  have hmember : (Json.object [("preferences", m.toJson)]).member "preferences" = m.toJson := rfl
  have hshows : (shownPreferences m).Shows type transport ↔
      (m.toJson.member type).member transport = .bool true := by
    constructor
    · rintro ⟨j, hj, hbool⟩
      cases hj
      rwa [hmember] at hbool
    · intro hbool
      exact ⟨_, rfl, hmember ▸ hbool⟩
  rw [hshows, PreferenceMap.toJson, Json.member_ofDictionary, PreferenceMap.wish?]
  cases m.get? type with
  | none => simp [Json.member]
  | some wishes =>
    rw [Option.map_some, Option.getD_some, Json.member_ofDictionary, Option.bind_some]
    cases wishes.get? transport <;> simp

theorem value_showPreferences {key : String} (h : s.store.get key = .ok u) :
    (showPreferences key s).value = shownPreferences (s.hydrate u.preferences).value := by
  unfold showPreferences
  rw [h]
  rfl

/-- A request to see the preferences of a user is answered with them. -/
theorem handle_showPreferences (arrival : Arrival) (tl : Timeline) {r : Http.Request}
    {segment : String} (hmethod : r.method = "GET") (hroute : s.route r = some (.preferences segment))
    (hkey : Http.segmentName segment = some u.key) (hget : s.store.get u.key = .ok u) :
    (handle arrival r (s, tl)).1 = some (shownPreferences (s.hydrate u.preferences).value) := by
  have hallows : (Route.preferences segment).allows r.method := by
    simp [Route.allows, isReading, hmethod]
  rw [handle_of_allows arrival tl hroute hallows]
  simp [answer, answerPreferences, hkey, hmethod, value_showPreferences hget]

/-- Without an opinion the answer is yes. -/
theorem ne_some_false_iff_getD {opinion : Option Bool} :
    opinion ≠ some false ↔ some (opinion.getD true) = some true := by
  cases opinion with
  | none => simp
  | some wanted => cases wanted <;> simp

/-- For whoever the recipient is found to be, what is shown is what counts, or yes. -/
theorem wish?_hydrate_of_find {n : Notification} {transport : String}
    (hfallback : s.fallback.isImpersonal) (hfind : (s.store.find n.recipient).value = .ok u)
    (htype : n.context.type ∈ s.eventTypes) (htransport : transport ∈ s.transportKeys) :
    (s.hydrate u.preferences).value.wish? n.context.type transport =
      some ((s.preferences.wants n transport).value.getD true) := by
  obtain ⟨sample, hsample⟩ := PreferenceMap.exists_sample n.context.type_ne_empty
  have hsampleType := PreferenceMap.type_of_sample hsample
  have hwants : s.fallback.wants sample transport = s.fallback.wants n transport :=
    Provider.wants_eq_of_isImpersonal hsampleType s.fallback hfallback
  rw [hydrate, PreferenceMap.wish?_hydrate, if_pos ⟨htype, htransport⟩,
    PreferenceMap.sampleWish_of_ok _ _ _ hsample, preferences, Provider.value_wants_users_first hfind,
    PreferenceMap.shownWish, hsampleType, defaultPreference_of_isImpersonal hfallback, hwants]
  cases u.preferences.wish? n.context.type transport <;> rfl

/-! ### What counts -/

/-- Whoever is not called off is invoked just where the user is shown a yes. -/
theorem isInvoked_iff_shows {n : Notification} {token : Token} {v : Herald.Visit}
    (hfallback : s.fallback.isImpersonal) (hfind : (s.store.find n.recipient).value = .ok u)
    (htype : n.context.type ∈ s.eventTypes) (htransport : v.transport.key ∈ s.transportKeys)
    (hgoes : ¬v.IsLate token) :
    v.IsInvoked s.preferences n token ↔
      (shownPreferences (s.hydrate u.preferences).value).Shows n.context.type v.transport.key := by
  rw [shows_shownPreferences, wish?_hydrate_of_find hfallback hfind htype htransport,
    ← ne_some_false_iff_getD]
  exact and_iff_right hgoes

/-- A dispatch to a user pushes its notification over just the transports for which the user is shown a
yes, and passes by the others, if it is not called off. -/
theorem pushed_iff_shown (s : Server) (hfallback : s.fallback.isImpersonal)
    (hunique : s.store.keys.Nodup) (n : Notification) (u : User)
    (hfind : (s.store.find n.recipient).value = .ok u) (htype : n.context.type ∈ s.eventTypes)
    (token : Token) (tl : Timeline)
    (hgoes : (Notifier.push n token (s.notifier, tl)).2.2.isCancelled token = false)
    (arrival : Arrival) (r : Http.Request) (tl' : Timeline) (segment : String)
    (hmethod : r.method = "GET") (hroute : s.route r = some (.preferences segment))
    (hkey : Http.segmentName segment = some u.key) (hreach : s.store.reach u.key = .ok ()) :
    ∃ x visits unvisited left, (handle arrival r (s, tl')).1 = some x ∧ x.status = .ok ∧
      s.notifier.Accounts n token tl visits unvisited left ∧
      (∀ v ∈ visits,
        (v.Pushes s.preferences n token ↔ x.Shows n.context.type v.transport.key) ∧
          (¬x.Shows n.context.type v.transport.key → v.PassesBy)) ∧
      ((Notifier.push n token (s.notifier, tl)).1 ≠ none → ∀ transport ∈ s.transportKeys,
        (∃ v ∈ visits, v.transport.key = transport ∧ v.Pushes s.preferences n token) ↔
          x.Shows n.context.type transport) := by
  have hget := UserStore.get_of_holds hunique hreach (UserStore.holds_of_find hfind)
  obtain ⟨⟨_, visits, unvisited⟩, -, left, haccounts⟩ := s.notifier.exists_accounts n token tl
  have hkeys : s.transportKeys =
      visits.map (fun v => v.transport.key) ++ unvisited.map Transport.key :=
    haccounts.keys_eq
  have hinvoked : ∀ v ∈ visits, v.IsInvoked s.preferences n token ↔
      (shownPreferences (s.hydrate u.preferences).value).Shows n.context.type v.transport.key := by
    intro v hv
    have hinTime : ¬v.IsLate token := fun hlate =>
      Bool.false_ne_true (hgoes.symm.trans (haccounts.isCancelled_of_isLate hv hlate))
    have htransport : v.transport.key ∈ s.transportKeys :=
      hkeys ▸ List.mem_append_left _ (List.mem_map_of_mem hv)
    exact isInvoked_iff_shows hfallback hfind htype htransport hinTime
  have hpushes : ∀ v ∈ visits, v.Pushes s.preferences n token ↔
      (shownPreferences (s.hydrate u.preferences).value).Shows n.context.type v.transport.key :=
    fun v hv => (haccounts.heeds v hv).pushes_iff.trans (hinvoked v hv)
  have hspares : ∀ v ∈ visits,
      ¬(shownPreferences (s.hydrate u.preferences).value).Shows n.context.type v.transport.key →
        v.PassesBy :=
    fun v hv hshown => (haccounts.heeds v hv).passesBy fun h => hshown ((hinvoked v hv).mp h)
  refine ⟨_, visits, unvisited, left, handle_showPreferences arrival tl' hmethod hroute hkey hget,
    rfl, haccounts, fun v hv => ⟨hpushes v hv, hspares v hv⟩,
    fun hended transport htransport => ⟨?_, fun hshows => ?_⟩⟩
  · rintro ⟨v, hv, rfl, hpushed⟩
    exact (hpushes v hv).mp hpushed
  · obtain ⟨-, rfl⟩ | ⟨hnone, -⟩ := haccounts.ends
    · rw [hkeys, List.map_nil, List.append_nil] at htransport
      obtain ⟨v, hv, rfl⟩ := List.mem_map.mp htransport
      exact ⟨v, hv, rfl, (hpushes v hv).mpr hshows⟩
    · exact absurd hnone hended

/-- A message to the user of the example. -/
def sampleNotification : Notification where
  context := ⟨"1", Message.source, Message.eventType, none, none, ∅, sampleArrival_id_ne_empty,
    by decide⟩
  recipient := sampleAddress
  message := "hi"
  messages := ∅
  options := ∅

/-- The user looks at the preferences. -/
def sampleGet : Http.Request :=
  ⟨"GET", "/users/ada/preferences", [], []⟩

theorem pushed_iff_shown_sample :
    (Notifier.push sampleNotification .requests (sampleServer.notifier, .start none)).2.2.isCancelled
        .requests = false ∧
      ∃ x visits unvisited left,
        (handle sampleArrival sampleGet (sampleServer, .start none)).1 = some x ∧ x.status = .ok ∧
        sampleServer.notifier.Accounts sampleNotification .requests (.start none) visits unvisited
          left ∧
        (∀ v ∈ visits,
          (v.Pushes sampleServer.preferences sampleNotification .requests ↔
              x.Shows Message.eventType v.transport.key) ∧
            (¬x.Shows Message.eventType v.transport.key → v.PassesBy)) ∧
        ((Notifier.push sampleNotification .requests (sampleServer.notifier, .start none)).1 ≠ none →
          ∀ transport ∈ sampleServer.transportKeys,
            (∃ v ∈ visits, v.transport.key = transport ∧
                v.Pushes sampleServer.preferences sampleNotification .requests) ↔
              x.Shows Message.eventType transport) := by
  obtain ⟨-, -, _, hturns⟩ := Notifier.dispatches_push sampleNotification .requests
    sampleServer.notifier (.start none)
  have hgoes := hturns.toFollows.isCancelled_eq (by decide)
  exact ⟨hgoes, pushed_iff_shown sampleServer rfl (by decide) sampleNotification
    ⟨"ada", sampleAddress, ∅⟩ rfl (by decide) .requests (.start none) hgoes sampleArrival sampleGet
    (.start none) "ada" rfl (by decide) segmentName_ada rfl⟩

end Server

end Herald
