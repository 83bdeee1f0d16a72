import Herald.Http.Message
import Herald.Preference.Hydration
import Herald.Server.Basic

/-!
Showing and changing the stored preferences of a user. What is shown is completed to all event types
and transports of the server; what is stored is exactly what was sent.
-/

namespace Herald.Server

structure PreferencesDraft where
  preferences : Option PreferenceMap := none

def PreferencesDraft.assign (d : PreferencesDraft) (name : String) (t : Json.Tree) :
    Except Json.Fault PreferencesDraft :=
  match name with
  | "preferences" => do .ok ⟨← Json.once name d.preferences PreferenceMap.decoder t⟩
  | _ => do
    Json.Decoder.skip t
    .ok d

def preferencesRecord : Json.Record PreferencesDraft where
  name := "PreferencesBody"
  fields := [⟨"preferences", false⟩]
  assign := PreferencesDraft.assign

def preferencesDecoder : Json.Decoder PreferenceMap := fun t => do
  Json.required "preferences" (← preferencesRecord.read {} t).preferences

def shownPreferences (m : PreferenceMap) : Http.Response :=
  ⟨.ok, .json (.object [("preferences", m.toJson)])⟩

def hydrate (s : Server) (stored : PreferenceMap) : Logged PreferenceMap :=
  stored.hydrate s.eventTypes s.transportKeys s.defaultPreference

def storeFailure (key : String) (e : UserError) : Logged Http.Response :=
  if e.isNotFound then .pure (.plain .notFound s!"user not found: {key}")
  else
    (Logged.report .warn "User store failed" [("user", key), ("error", e.message)]).bind fun _ =>
      .pure (.plain .internalError s!"user store error: {e.message}")

def showPreferences (key : String) (s : Server) : Logged Http.Response :=
  match s.store.get key with
  | .error e => storeFailure key e
  | .ok user => (s.hydrate user.preferences).bind fun m => .pure (shownPreferences m)

/-- Replaces the preferences of a user. A body that is not understood changes nothing. -/
def replacePreferences (key : String) (body : List UInt8) (s : Server) :
    Logged (Http.Response × Server) :=
  match Json.decodeBytes preferencesDecoder body with
  | .error fault =>
    .pure (.plain .badRequest s!"malformed preferences: {fault.message}", s)
  | .ok m =>
    match s.store.setPreferences key m with
    | .error e => (storeFailure key e).bind fun answer => .pure (answer, s)
    | .ok store =>
      let s := { s with store }
      (Logged.report .info "Preferences updated" [("user", key)]).bind fun _ =>
        (s.hydrate m).bind fun m => .pure (shownPreferences m, s)

end Herald.Server
