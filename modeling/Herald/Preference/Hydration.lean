import Herald.Preference.Provider

/-!
Hydration: a stored map is completed to all given event types and transports, as it is shown to the
person. Where no wish is stored the default counts, and without any opinion the answer is yes.
-/

namespace Herald.PreferenceMap

/-- A notification of the given type for nobody, on which the default is asked. -/
def sample (type : String) : Except Context.Invalid Notification :=
  (Context.make "preferences" "/users" type).map .about

def shownWish (stored : PreferenceMap) (fallback : Provider) (n : Notification)
    (transport : String) : Logged Bool :=
  match stored.wish? n.context.type transport with
  | some wants => .pure wants
  | none => (fallback.wants n transport).bind fun answer => .pure (answer.getD true)

def hydrateType (stored : PreferenceMap) (fallback : Provider) (n : Notification) :
    List String → PreferenceMap → Logged PreferenceMap
  | [], shown => .pure shown
  | transport :: rest, shown =>
    (shownWish stored fallback n transport).bind fun wants =>
      hydrateType stored fallback n rest (shown.setWish n.context.type transport wants)

/-- Adds the wishes for each event type; an empty type has none. -/
def hydrateTypes (stored : PreferenceMap) (fallback : Provider) (transports : List String) :
    List String → PreferenceMap → Logged PreferenceMap
  | [], shown => .pure shown
  | type :: rest, shown =>
    match sample type with
    | .ok n =>
      (hydrateType stored fallback n transports shown).bind
        (hydrateTypes stored fallback transports rest)
    | .error _ => hydrateTypes stored fallback transports rest shown

/-- The stored wishes, completed to all event types and transports; others are left out. -/
def hydrate (stored : PreferenceMap) (types transports : List String) (fallback : Provider) :
    Logged PreferenceMap :=
  hydrateTypes stored fallback transports types ∅

end Herald.PreferenceMap
