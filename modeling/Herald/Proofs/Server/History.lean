import Herald.Proofs.Preference.Provider
import Herald.Proofs.Server.Routing
import Herald.Proofs.User.Records
import Mathlib

/-!
What a server has been through. Requests come one after another, and preferences stay as they were
stored until they are stored anew.
-/

namespace Herald

namespace UserStore

variable {s s' : UserStore} {key : String} {m m' : PreferenceMap}

/-- Whoever is stored under the key prefers this. -/
def Prefers (s : UserStore) (key : String) (m : PreferenceMap) : Prop :=
  ∀ u, s.Holds u → u.key = key → u.preferences = m

theorem prefers_of_setPreferences (hunique : s.keys.Nodup)
    (h : s.setPreferences key m = .ok s') : s'.Prefers key m := by
  intro u hu hkey
  have hheld := holds_of_setPreferences hunique h hu
  rwa [if_pos hkey] at hheld

theorem Prefers.of_setPreferences (hprefers : s.Prefers key m) (hunique : s.keys.Nodup)
    {other : String} (hne : other ≠ key) (h : s.setPreferences other m' = .ok s') :
    s'.Prefers key m := by
  intro u hu hkey
  have hheld := holds_of_setPreferences hunique h hu
  rw [if_neg (hkey.trans_ne hne.symm)] at hheld
  exact hprefers u hheld hkey

end UserStore

namespace Server

theorem Replaces.key_eq {s : Server} {r : Http.Request} {response response' : Option Http.Response}
    {key key' : String} (h : s.Replaces r response key) (h' : s.Replaces r response' key') :
    key = key' := by
  obtain ⟨user, hroute, hkey⟩ := h.path
  obtain ⟨user', hroute', hkey'⟩ := h'.path
  rw [hroute] at hroute'
  cases hroute'
  exact Option.some.inj (hkey.symm.trans hkey')

/-- A request, when it came, and the timeline on which it was answered. -/
structure Visit where
  arrival : Arrival
  request : Http.Request
  timeline : Timeline

namespace Visit

/-- What comes of a visit: the answer, if there ever is one, the server and the timeline. -/
def outcome (v : Visit) (s : Server) : Option Http.Response × Server × Timeline :=
  handle v.arrival v.request (s, v.timeline)

/-- The token of the request. -/
def token (v : Visit) : Token :=
  (v.timeline.issue .requests).1

/-- The visit replaces the preferences of the user with this key. -/
def Replaces (v : Visit) (s : Server) (key : String) : Prop :=
  s.Replaces v.request (v.outcome s).1 key

/-- The token was cancelled before it was dropped at the end. -/
def CalledOff (v : Visit) (s : Server) : Prop :=
  ∃ ended : Timeline, (v.outcome s).2.2 = ended.cancel v.token ∧ ended.isCancelled v.token

/-- These are the turns that the notifications of the visit have with the transports. -/
def HasTurns (v : Visit) (s : Server) (turns : List Turn) : Prop :=
  Timeline.HasTurns (pairs s.transportKeys (s.requestNotifications v.arrival v.request))
    (v.outcome s).1.isSome turns v.timeline (v.outcome s).2.2

variable {v : Visit} {s : Server} {key : String} {m : PreferenceMap}

theorem exists_hasTurns (v : Visit) (s : Server) :
    ∃ turns, v.HasTurns s turns ∧ (∀ turn ∈ turns, turn.Heeds s.preferences) ∧
      ∀ turn ∈ turns, turn.fate = .calledOff → v.CalledOff s := by
  obtain ⟨turns, ended, hturns, hended⟩ := dispatches_handle v.arrival v.request s v.timeline
  refine ⟨turns, ⟨?_, hturns.order, hturns.complete, hturns.waits⟩, hturns.heeds, ?_⟩
  · rw [← hturns.turns_eq, outcome]
    obtain heq | ⟨-, heq⟩ := hended
    · rw [heq]
      rfl
    · rw [heq]
  · intro turn hturn hfate
    obtain heq | ⟨rfl, -⟩ := hended
    · exact ⟨ended, heq, hturns.calledOff turn hturn hfate⟩
    · cases hturn

/-- Nothing calls the request off: its token is not cancelled, and not below the one that may be. -/
structure Goes (v : Visit) : Prop where
  outside : v.token.isBelow v.timeline.root = false
  live : v.timeline.isCancelled v.token = false

theorem Goes.not_calledOff (h : v.Goes) (s : Server) : ¬v.CalledOff s := by
  rintro ⟨ended, heq, hcancelled⟩
  obtain ⟨_, ended', hdispatches, hended⟩ := dispatches_handle v.arrival v.request s v.timeline
  have hlive := (hdispatches.toFollows.isCancelled_eq h.outside).trans h.live
  obtain heq' | ⟨-, heq'⟩ := hended
  · have hdropped : ended.cancel v.token = ended'.cancel v.token := heq.symm.trans heq'
    have hsame : ended.cancelled = ended'.cancelled :=
      (List.cons.inj (congrArg Timeline.cancelled hdropped)).2
    rw [Timeline.isCancelled, hsame, ← Timeline.isCancelled] at hcancelled
    exact absurd (hcancelled.symm.trans hlive) nofun
  · have hmem : v.token ∈ ended'.cancelled := by
      rw [show ended' = ended.cancel v.token from heq'.symm.trans heq]
      exact List.mem_cons_self
    have hcancelled' : ended'.isCancelled v.token :=
      List.any_eq_true.mpr ⟨v.token, hmem, v.token.isBelow_self⟩
    exact absurd (hcancelled'.symm.trans hlive) nofun

/-! ### What a visit leaves stored -/

theorem keys_outcome (hunique : s.store.keys.Nodup) :
    (v.outcome s).2.1.store.keys = s.store.keys := by
  obtain ⟨key, m, store, -, -, hset, heq⟩ | ⟨-, hworked⟩ :=
    store_handle v.arrival v.request s v.timeline
  · rw [outcome, heq]
    exact UserStore.keys_setPreferences hunique hset
  · rw [outcome, hworked.eq]

/-- Who has replaced their preferences prefers what they sent. -/
theorem prefers_of_replaces (hunique : s.store.keys.Nodup) (h : v.Replaces s key)
    (hbody : Json.decodeBytes preferencesDecoder v.request.body = .ok m) :
    (v.outcome s).2.1.store.Prefers key m := by
  obtain ⟨key', m', store, hreplaces, hdecode, hset, heq⟩ | ⟨hnone, -⟩ :=
    store_handle v.arrival v.request s v.timeline
  · cases h.key_eq hreplaces
    cases hbody.symm.trans hdecode
    rw [outcome, heq]
    exact UserStore.prefers_of_setPreferences hunique hset
  · exact absurd h (hnone key)

/-- Whoever is not concerned keeps their preferences. -/
theorem prefers_outcome (hunique : s.store.keys.Nodup) (h : s.store.Prefers key m)
    (hspares : ¬v.Replaces s key) : (v.outcome s).2.1.store.Prefers key m := by
  obtain ⟨key', m', store, hreplaces, -, hset, heq⟩ | ⟨-, hworked⟩ :=
    store_handle v.arrival v.request s v.timeline
  · rw [outcome, heq]
    refine h.of_setPreferences hunique ?_ hset
    rintro rfl
    exact hspares hreplaces
  · rw [outcome, hworked.eq]
    exact h

end Visit

/-! ### Histories -/

/-- The server after some visits. -/
def after (s : Server) : List Visit → Server
  | [] => s
  | v :: rest => after (v.outcome s).2.1 rest

theorem after_append (s : Server) (visits more : List Visit) :
    s.after (visits ++ more) = (s.after visits).after more := by
  induction visits generalizing s with
  | nil => rfl
  | cons v rest ih => exact ih _

/-- Visits change nothing about what is asked for where. -/
@[simp] theorem route_after (s : Server) (visits : List Visit) (r : Http.Request) :
    (s.after visits).route r = s.route r := by
  induction visits generalizing s with
  | nil => rfl
  | cons v rest ih =>
    have hpages : (v.outcome s).2.1.pages = s.pages := by
      obtain ⟨_, _, _, -, -, -, heq⟩ | ⟨-, hworked⟩ := store_handle v.arrival v.request s v.timeline
      · rw [Visit.outcome, heq]
      · rw [Visit.outcome, hworked.eq]
    rw [after, ih, route_eq_of_pages_eq hpages]

/-- None of the visits replaces the preferences of the user with this key. -/
def Spares (key : String) (s : Server) : List Visit → Prop
  | [] => True
  | v :: rest => ¬v.Replaces s key ∧ Spares key (v.outcome s).2.1 rest

theorem keys_after {s : Server} (visits : List Visit) (hunique : s.store.keys.Nodup) :
    (s.after visits).store.keys = s.store.keys := by
  induction visits generalizing s with
  | nil => rfl
  | cons v rest ih =>
    have hkeys := v.keys_outcome hunique
    rw [after, ih (hkeys ▸ hunique), hkeys]

theorem prefers_after {s : Server} {key : String} {m : PreferenceMap} (visits : List Visit)
    (hunique : s.store.keys.Nodup) (h : s.store.Prefers key m) (hspares : s.Spares key visits) :
    (s.after visits).store.Prefers key m := by
  induction visits generalizing s with
  | nil => exact h
  | cons v rest ih =>
    have hkeys := v.keys_outcome hunique
    exact ih (hkeys ▸ hunique) (v.prefers_outcome hunique h hspares.1) hspares.2

/-! ### Wishes -/

/-- The recipient of the notification is found to be the user with this key. -/
def ResolvesTo (s : Server) (n : Notification) (key : String) : Prop :=
  ∃ u, (s.store.find n.recipient).value = .ok u ∧ u.key = key

/-- What somebody prefers comes before any default. -/
theorem value_wants_of_prefers {s : Server} {n : Notification} {transport key : String}
    {m : PreferenceMap} {wanted : Bool} (h : s.store.Prefers key m) (hresolves : s.ResolvesTo n key)
    (hwish : m.wish? n.context.type transport = some wanted) :
    (s.preferences.wants n transport).value = some wanted := by
  obtain ⟨u, hfind, hkey⟩ := hresolves
  have hpreferences := h u (UserStore.holds_of_find hfind) hkey
  rw [preferences, Provider.value_wants_users_first hfind, hpreferences, hwish, Option.some_or]

/-! Two visits to the server of the example: the user opts out, and then somebody writes. -/

/-- The user opts out. -/
def samplePut : Visit where
  arrival := sampleArrival
  request := ⟨"PUT", "/users/ada/preferences", [], Text.Utf8.encode
    "\x7b\"preferences\":\x7b\"com.example.message_sent\":\x7b\"writer\":false\x7d\x7d\x7d"⟩
  timeline := .start none .requests

/-- Somebody writes to the user. -/
def samplePost : Visit where
  arrival := sampleArrival
  request := ⟨"POST", "/event/example", [], Text.Utf8.encode
    "\x7b\"from\":\"bob\",\"to\":\"ada@example.org\",\"comment\":\"hi\"\x7d"⟩
  timeline := .start none .requests

/-- What the user wants. -/
def sampleWishes : PreferenceMap :=
  PreferenceMap.setWish ∅ Message.eventType "writer" false

theorem segmentName_ada : Http.segmentName "ada" = some "ada" := by
  cbv

theorem decodeBytes_samplePut :
    Json.decodeBytes preferencesDecoder samplePut.request.body = .ok sampleWishes := by
  cbv

/-- Where the user is stored and nothing else is at the path, the user opts out. -/
theorem replaces_samplePut {s : Server} {store : UserStore}
    (hroute : s.route samplePut.request = some (.preferences "ada"))
    (hset : s.store.setPreferences "ada" sampleWishes = .ok store) : samplePut.Replaces s "ada" := by
  have hsize : samplePut.request.body.length ≤ largestBody := by cbv
  exact replaces_of_setPreferences sampleArrival samplePut.timeline rfl hroute segmentName_ada hsize
    decodeBytes_samplePut hset

end Server

end Herald
