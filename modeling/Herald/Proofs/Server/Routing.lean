import Herald.Proofs.Server.Ingest
import Herald.Server.Routing

/-!
Answering a request. Only a request to replace preferences that is answered well changes what is
stored; only an event that is taken in gives transports their turns.
-/

namespace Herald.Server

open Timeline

/-- Requests go the same ways in servers with the same pages. -/
theorem route_eq_of_pages_eq {s s' : Server} (h : s'.pages = s.pages) (r : Http.Request) :
    s'.route r = s.route r := by
  unfold route
  rw [h]

/-! ### Preferences -/

theorem status_storeFailure (key : String) (e : UserError) :
    (storeFailure key e).value.status ≠ .ok := by
  unfold storeFailure
  split
  · exact nofun
  · exact nofun

/-- Preferences are replaced, or the request fails and the server stays as it is. -/
theorem replacePreferences_cases (key : String) (body : List UInt8) (s : Server) :
    (∃ m store, Json.decodeBytes preferencesDecoder body = .ok m ∧
        s.store.setPreferences key m = .ok store ∧
        (replacePreferences key body s).value =
          (shownPreferences (hydrate { s with store } m).value, { s with store })) ∨
      (replacePreferences key body s).value.1.status ≠ .ok ∧
        (replacePreferences key body s).value.2 = s := by
  unfold replacePreferences
  split
  · exact .inr ⟨nofun, rfl⟩
  · rename_i m hdecode
    split
    · rename_i e _
      exact .inr ⟨status_storeFailure key e, rfl⟩
    · rename_i store hset
      exact .inl ⟨m, store, hdecode, hset, rfl⟩

/-- A request under the path of the preferences of a user either replaces them or changes nothing. -/
theorem answerPreferences_cases (user : String) (r : Http.Request) (s : Server) :
    (∃ key m store, r.method = "PUT" ∧ Http.segmentName user = some key ∧
        Json.decodeBytes preferencesDecoder r.body = .ok m ∧
        s.store.setPreferences key m = .ok store ∧
        (answerPreferences user r s).value.1.status = .ok ∧
        (answerPreferences user r s).value.2 = { s with store }) ∨
      (r.method = "PUT" → (answerPreferences user r s).value.1.status ≠ .ok) ∧
        (answerPreferences user r s).value.2 = s := by
  unfold answerPreferences
  split
  · exact .inr ⟨nofun, rfl⟩
  · rename_i key hkey
    split
    · rename_i hmethod
      split
      · exact .inr ⟨nofun, rfl⟩
      · obtain ⟨m, store, hdecode, hset, heq⟩ | ⟨hstatus, heq⟩ :=
          replacePreferences_cases key r.body s
        · refine .inl ⟨key, m, store, hmethod, hkey, hdecode, hset, ?_, ?_⟩
          · rw [heq]
            rfl
          · rw [heq]
        · exact .inr ⟨fun _ => hstatus, heq⟩
    · rename_i hmethod
      exact .inr ⟨fun hput => absurd hput hmethod, rfl⟩

/-! ### Requests -/

/-- A request to replace the preferences of the user with this key was answered well. -/
structure Replaces (s : Server) (r : Http.Request) (response : Option Http.Response)
    (key : String) : Prop where
  method : r.method = "PUT"
  path : ∃ user, s.route r = some (.preferences user) ∧ Http.segmentName user = some key
  status : response.map Http.Response.status = some .ok

/-- The notifications that a request calls for if it is for the source that a segment names. -/
def postedNotifications (s : Server) (arrival : Arrival) (r : Http.Request) (source : String) :
    List Notification :=
  match Http.segmentName source with
  | none => []
  | some key =>
    if largestBody < r.body.length then []
    else s.submissionNotifications key arrival ⟨r.headers, r.body⟩

/-- The notifications that a request calls for. -/
def requestNotifications (s : Server) (arrival : Arrival) (r : Http.Request) : List Notification :=
  match s.route r with
  | some (.event source) => if r.method = "POST" then s.postedNotifications arrival r source else []
  | _ => []

variable {s : Server} {r : Http.Request}

theorem dispatches_answer_event (arrival : Arrival) (r : Http.Request) (token : Token)
    (source : String) (s : Server) (tl : Timeline) :
    Worked s (answer arrival r token (.event source) (s, tl)).2.1 ∧
      ∃ turns, Dispatches s.preferences token
        (pairs s.transportKeys (s.postedNotifications arrival r source))
        (answer arrival r token (.event source) (s, tl)).1.isSome turns tl
        (answer arrival r token (.event source) (s, tl)).2.2 := by
  unfold answer postedNotifications
  dsimp only
  cases Http.segmentName source with
  | none => exact ⟨.refl s, [], .of_passes (.refl token tl)⟩
  | some key =>
    dsimp only
    by_cases hlarge : largestBody < r.body.length
    · rw [if_pos hlarge, if_pos hlarge]
      exact ⟨.refl s, [], .of_passes (.refl token tl)⟩
    · rw [if_neg hlarge, if_neg hlarge]
      exact dispatches_ingest key arrival ⟨r.headers, r.body⟩ token s tl

theorem not_replaces_of_route {response : Option Http.Response}
    (h : ∀ user, s.route r ≠ some (.preferences user)) (key : String) :
    ¬s.Replaces r response key := by
  rintro ⟨-, ⟨user, hroute, -⟩, -⟩
  exact h user hroute

/-- A request on a route that allows its method is answered under a token of its own. -/
theorem handle_of_allows {route : Route} (arrival : Arrival) (tl : Timeline)
    (hroute : s.route r = some route) (hallows : route.allows r.method) :
    handle arrival r (s, tl) =
      ((answer arrival r (tl.issue .requests).1 route (s, (tl.issue .requests).2)).1.map
          fun x => if r.method = "HEAD" then x.bare else x,
        (answer arrival r (tl.issue .requests).1 route (s, (tl.issue .requests).2)).2.1,
        (answer arrival r (tl.issue .requests).1 route
          (s, (tl.issue .requests).2)).2.2.cancel (tl.issue .requests).1) := by
  simp only [handle, hroute, if_pos hallows]

/-- Any other request is turned down at once. -/
theorem handle_of_not_allows (arrival : Arrival) (tl : Timeline)
    (h : ∀ route, s.route r = some route → ¬route.allows r.method) :
    ∃ x, x.status ≠ .ok ∧ handle arrival r (s, tl) = (some x, s, tl) := by
  cases hroute : s.route r with
  | none => exact ⟨.empty .notFound, nofun, by simp only [handle, hroute]⟩
  | some route =>
    exact ⟨.empty .methodNotAllowed, nofun, by simp only [handle, hroute, if_neg (h route hroute)]⟩

/-- Preferences that can be read and stored replace those of the user. -/
theorem replaces_of_setPreferences (arrival : Arrival) (tl : Timeline) {user key : String}
    {m : PreferenceMap} {store : UserStore} (hmethod : r.method = "PUT")
    (hroute : s.route r = some (.preferences user)) (hkey : Http.segmentName user = some key)
    (hsize : r.body.length ≤ largestBody)
    (hdecode : Json.decodeBytes preferencesDecoder r.body = .ok m)
    (hset : s.store.setPreferences key m = .ok store) :
    s.Replaces r (handle arrival r (s, tl)).1 key := by
  have hallows : (Route.preferences user).allows r.method := by simp [Route.allows, hmethod]
  refine ⟨hmethod, ⟨user, hroute, hkey⟩, ?_⟩
  rw [handle_of_allows arrival tl hroute hallows]
  simp [answer, answerPreferences, hkey, hmethod, Nat.not_lt.mpr hsize, replacePreferences, hdecode,
    hset, shownPreferences]

/-- The stored preferences of a user were replaced by those in the body, or nothing is stored anew. -/
theorem store_handle (arrival : Arrival) (r : Http.Request) (s : Server) (tl : Timeline) :
    (∃ key m store, s.Replaces r (handle arrival r (s, tl)).1 key ∧
        Json.decodeBytes preferencesDecoder r.body = .ok m ∧
        s.store.setPreferences key m = .ok store ∧
        (handle arrival r (s, tl)).2.1 = { s with store }) ∨
      (∀ key, ¬s.Replaces r (handle arrival r (s, tl)).1 key) ∧
        Worked s (handle arrival r (s, tl)).2.1 := by
  by_cases hallowed : ∃ route, s.route r = some route ∧ route.allows r.method
  · obtain ⟨route, hroute, hallows⟩ := hallowed
    rw [handle_of_allows arrival tl hroute hallows]
    cases route with
    | preferences user =>
      obtain ⟨key, m, store, hmethod, hkey, hdecode, hset, hstatus, hserver⟩ | ⟨hstatus, hserver⟩ :=
        answerPreferences_cases user r s
      · have hget : r.method ≠ "HEAD" := by simp [hmethod]
        refine .inl ⟨key, m, store, ⟨hmethod, ⟨user, hroute, hkey⟩, ?_⟩, hdecode, hset, hserver⟩
        simp only [if_neg hget, answer, Option.map_some, hstatus]
      · refine .inr ⟨fun key hreplaces => ?_, ?_⟩
        · have hget : r.method ≠ "HEAD" := by simp [hreplaces.method]
          have hok := hreplaces.status
          simp only [if_neg hget, answer, Option.map_some, Option.some.injEq] at hok
          exact hstatus hreplaces.method hok
        · rw [show (answer arrival r _ (.preferences user) (s, _)).2.1 = s from hserver]
          exact .refl s
    | event source =>
      exact .inr ⟨not_replaces_of_route (by simp [hroute]),
        (dispatches_answer_event arrival r _ source s _).1⟩
    | _ => exact .inr ⟨not_replaces_of_route (by simp [hroute]), .refl s⟩
  · obtain ⟨x, hstatus, heq⟩ := handle_of_not_allows arrival tl fun route hroute hallows =>
      hallowed ⟨route, hroute, hallows⟩
    rw [heq]
    exact .inr ⟨fun key hreplaces => hstatus (Option.some.inj hreplaces.status), .refl s⟩

/-- The transports have their turns with the notifications of a request, until its token is dropped. -/
theorem dispatches_handle (arrival : Arrival) (r : Http.Request) (s : Server) (tl : Timeline) :
    ∃ turns ended, Dispatches s.preferences (tl.issue .requests).1
        (pairs s.transportKeys (s.requestNotifications arrival r))
        (handle arrival r (s, tl)).1.isSome turns tl ended ∧
      ((handle arrival r (s, tl)).2.2 = ended.cancel (tl.issue .requests).1 ∨
        turns = [] ∧ (handle arrival r (s, tl)).2.2 = ended) := by
  have hissue := passes_issue (tl.issue .requests).1 tl .requests
  by_cases hallowed : ∃ route, s.route r = some route ∧ route.allows r.method
  · obtain ⟨route, hroute, hallows⟩ := hallowed
    rw [handle_of_allows arrival tl hroute hallows]
    unfold requestNotifications
    rw [hroute]
    cases route with
    | event source =>
      have hpost : r.method = "POST" := beq_iff_eq.mp hallows
      obtain ⟨-, turns, hturns⟩ := dispatches_answer_event arrival r (tl.issue .requests).1 source s
        (tl.issue .requests).2
      dsimp only
      rw [if_pos hpost, Option.isSome_map]
      exact ⟨turns, _, hturns.before hissue, .inl rfl⟩
    | preferences user =>
      exact ⟨[], _, .of_passes (hissue.trans (passes_hear _ _ _)), .inl rfl⟩
    | _ => exact ⟨[], _, .of_passes hissue, .inl rfl⟩
  · obtain ⟨x, -, heq⟩ := handle_of_not_allows arrival tl fun route hroute hallows =>
      hallowed ⟨route, hroute, hallows⟩
    have hnone : s.requestNotifications arrival r = [] := by
      unfold requestNotifications
      split
      · rename_i source hroute
        split
        · rename_i hpost
          exact absurd ⟨_, hroute, beq_iff_eq.mpr hpost⟩ hallowed
        · rfl
      · rfl
    rw [heq, hnone]
    exact ⟨[], tl, .of_passes (.refl _ tl), .inr ⟨rfl, rfl⟩⟩

/-! ### An example -/

/-- The moment of a request. -/
def sampleArrival : Arrival :=
  ⟨"1", ⟨⟨2024, 1, 1⟩, 0, 0, 0, 0⟩⟩

theorem sampleArrival_id_ne_empty : sampleArrival.id ≠ "" := by
  decide

/-- An email address. -/
def sampleAddress : IdentifierSet :=
  (Identifier.email "ada@example.org").toOption.elim ∅ fun id => (∅ : IdentifierSet).insert id

/-- A server with one user, who is known by the address, and one transport. -/
def sampleServer : Server where
  address := .anyHost 3000
  sources := Dictionary.set ∅ "example" .messages
  processors := [.messages]
  transports := [.ofEndpoint (.writer none)]
  store := .ofUsers [⟨"ada", sampleAddress, ∅⟩]
  fallback := .always true
  pages := []

end Herald.Server
