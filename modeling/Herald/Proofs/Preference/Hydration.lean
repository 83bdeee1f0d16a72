import Herald.Preference.Hydration
import Herald.Proofs.Ascending
import Herald.Proofs.Preference.Provider
import Herald.Proofs.Result

/-!
What hydration shows. A completed map has a wish for every event type and transport it was completed
to and for no others; it is the stored one, or else the one of the default. In which order and how often
types and transports are listed does not matter, and a completed map is complete.
-/

namespace Herald.PreferenceMap

open Dictionary

variable {type transport : String}

@[simp] theorem wish?_empty (type transport : String) :
    (∅ : PreferenceMap).wish? type transport = none := rfl

theorem wish?_setWish (m : PreferenceMap) (type transport : String) (wants : Bool)
    (type' transport' : String) :
    (m.setWish type transport wants).wish? type' transport' =
      if type = type' ∧ transport = transport' then some wants else m.wish? type' transport' := by
  unfold wish? setWish
  rw [get?_set]
  by_cases htype : type = type'
  · subst htype
    rw [if_pos rfl, Option.bind_some, get?_set]
    cases m.get? type <;> simp
  · simp [htype]

/-! ### Samples -/

theorem type_of_sample {n : Notification} (h : sample type = .ok n) : n.context.type = type := by
  unfold sample Context.make Context.ofParts at h
  split at h
  · cases h
  · split at h
    · cases h
    · cases h
      rfl

theorem exists_sample (h : type ≠ "") : ∃ n, sample type = .ok n := by
  unfold sample Context.make Context.ofParts
  rw [dif_neg (by decide), dif_neg h]
  exact ⟨_, rfl⟩

/-- A sample is for nobody. -/
theorem recipient_of_sample {n : Notification} (h : sample type = .ok n) : n.recipient = ∅ := by
  obtain ⟨c, -, rfl⟩ := Result.map_eq_ok.mp h
  rfl

/-- The wish that is shown for an event type and a transport, if the type can have events. -/
def sampleWish (stored : PreferenceMap) (fallback : Provider) (type transport : String) :
    Option Bool :=
  match sample type with
  | .ok n => some (shownWish stored fallback n transport).value
  | .error _ => none

variable {stored shown : PreferenceMap} {fallback : Provider}

theorem sampleWish_of_ok (stored : PreferenceMap) (fallback : Provider) (transport : String)
    {n : Notification} (h : sample type = .ok n) :
    sampleWish stored fallback type transport = some (shownWish stored fallback n transport).value := by
  rw [sampleWish, h]

theorem isSome_sampleWish_iff :
    (sampleWish stored fallback type transport).isSome ↔ type ≠ "" := by
  unfold sampleWish
  constructor
  · rintro hsome rfl
    exact absurd hsome Bool.false_ne_true
  · intro hne
    obtain ⟨n, hsample⟩ := exists_sample hne
    rw [hsample]
    rfl

/-- Where a wish is stored the default is not asked. -/
theorem value_shownWish (stored : PreferenceMap) (fallback : Provider) (n : Notification)
    (transport : String) : (shownWish stored fallback n transport).value =
      (stored.wish? n.context.type transport).getD ((fallback.wants n transport).value.getD true) := by
  unfold shownWish
  cases stored.wish? n.context.type transport <;> rfl

/-! ### Completion -/

theorem wish?_hydrateType (n : Notification) (transports : List String) :
    (hydrateType stored fallback n transports shown).value.wish? type transport =
      if n.context.type = type ∧ transport ∈ transports then
        some (shownWish stored fallback n transport).value
      else shown.wish? type transport := by
  induction transports generalizing shown with
  | nil => simp [hydrateType]
  | cons first rest ih =>
    rw [hydrateType, Logged.value_bind, ih, wish?_setWish]
    by_cases htype : n.context.type = type
    · by_cases hrest : transport ∈ rest
      · simp [htype, hrest]
      · by_cases hfirst : first = transport
        · simp [htype, hfirst]
        · simp [htype, hrest, hfirst, Ne.symm hfirst]
    · simp [htype]

theorem wish?_hydrateTypes (types transports : List String) :
    (hydrateTypes stored fallback transports types shown).value.wish? type transport =
      (if type ∈ types ∧ transport ∈ transports then sampleWish stored fallback type transport
        else none).or (shown.wish? type transport) := by
  induction types generalizing shown with
  | nil => simp [hydrateTypes]
  | cons first rest ih =>
    unfold hydrateTypes
    split
    · rename_i n hsample
      have hwish := sampleWish_of_ok stored fallback transport hsample
      rw [Logged.value_bind, ih, wish?_hydrateType, type_of_sample hsample]
      by_cases htype : first = type
      · subst htype
        by_cases htransport : transport ∈ transports
        · by_cases hrest : first ∈ rest <;> simp [htransport, hrest, hwish]
        · simp [htransport]
      · simp [htype, Ne.symm htype]
    · rename_i hsample
      rw [ih]
      by_cases htype : first = type
      · subst htype
        have hwish : sampleWish stored fallback first transport = none := by rw [sampleWish, hsample]
        simp [hwish]
      · simp [Ne.symm htype]

/-- The stored wishes are completed to all event types and transports, and others are left out. -/
theorem wish?_hydrate (types transports : List String) :
    (stored.hydrate types transports fallback).value.wish? type transport =
      if type ∈ types ∧ transport ∈ transports then sampleWish stored fallback type transport
      else none := by
  rw [hydrate, wish?_hydrateTypes, wish?_empty, Option.or_none]

/-! ### Defaults over a store -/

theorem shownWish_withStore (store store' : UserStore) {n : Notification} (h : n.recipient.isEmpty)
    (transport : String) :
    shownWish stored (fallback.withStore store') n transport =
      shownWish stored (fallback.withStore store) n transport := by
  unfold shownWish
  rw [Provider.wants_withStore_of_isEmpty store store' h fallback]

theorem hydrateType_withStore (store store' : UserStore) {n : Notification} (h : n.recipient.isEmpty)
    (transports : List String) :
    hydrateType stored (fallback.withStore store') n transports shown =
      hydrateType stored (fallback.withStore store) n transports shown := by
  induction transports generalizing shown with
  | nil => rfl
  | cons first rest ih =>
    rw [hydrateType, hydrateType, shownWish_withStore store store' h]
    exact congrArg _ (funext fun _ => ih)

theorem hydrateTypes_withStore (store store' : UserStore) (types transports : List String) :
    hydrateTypes stored (fallback.withStore store') transports types shown =
      hydrateTypes stored (fallback.withStore store) transports types shown := by
  induction types generalizing shown with
  | nil => rfl
  | cons first rest ih =>
    unfold hydrateTypes
    split
    · rename_i n hsample
      have hnobody : n.recipient.isEmpty := by
        rw [recipient_of_sample hsample]
        rfl
      rw [hydrateType_withStore store store' hnobody]
      exact congrArg _ (funext fun _ => ih)
    · exact ih

/-- The default is asked about nobody, so it does not matter who is stored. -/
theorem hydrate_withStore (store store' : UserStore) (stored : PreferenceMap)
    (types transports : List String) (fallback : Provider) :
    stored.hydrate types transports (fallback.withStore store') =
      stored.hydrate types transports (fallback.withStore store) :=
  hydrateTypes_withStore store store' types transports

/-! ### Maps without blanks -/

/-- No event type stands in the map without a wish. -/
def IsFilled (m : PreferenceMap) : Prop :=
  ∀ type wishes, m.get? type = some wishes → wishes.isEmpty = false

theorem isFilled_empty : IsFilled ∅ := by
  intro type wishes h
  cases h

theorem IsFilled.setWish {m : PreferenceMap} (h : m.IsFilled) (type transport : String)
    (wants : Bool) : (m.setWish type transport wants).IsFilled := by
  intro type' wishes hwishes
  rw [PreferenceMap.setWish, get?_set] at hwishes
  split at hwishes
  · cases hwishes
    exact Ascending.isEmpty_insert _ _
  · exact h type' wishes hwishes

theorem IsFilled.hydrateType (h : shown.IsFilled) (n : Notification) (transports : List String) :
    (hydrateType stored fallback n transports shown).value.IsFilled := by
  induction transports generalizing shown with
  | nil => exact h
  | cons first rest ih => exact ih (h.setWish _ _ _)

theorem IsFilled.hydrateTypes (h : shown.IsFilled) (types transports : List String) :
    (hydrateTypes stored fallback transports types shown).value.IsFilled := by
  induction types generalizing shown with
  | nil => exact h
  | cons first rest ih =>
    unfold PreferenceMap.hydrateTypes
    split
    · exact ih (h.hydrateType _ transports)
    · exact ih h

theorem isFilled_hydrate (stored : PreferenceMap) (types transports : List String)
    (fallback : Provider) : (stored.hydrate types transports fallback).value.IsFilled :=
  isFilled_empty.hydrateTypes types transports

theorem get?_eq_none_of_wish? {m : PreferenceMap} (h : m.IsFilled)
    (hwish : ∀ transport, m.wish? type transport = none) : m.get? type = none := by
  cases hget : m.get? type with
  | none => rfl
  | some wishes =>
    obtain ⟨transport, wants, hwants⟩ := exists_get?_eq_some (h type wishes hget)
    have hnone := hwish transport
    rw [wish?, hget, Option.bind_some, hwants] at hnone
    cases hnone

/-- Without blanks a map is determined by its wishes. -/
theorem IsFilled.ext {m m' : PreferenceMap} (h : m.IsFilled) (h' : m'.IsFilled)
    (hwish : ∀ type transport, m.wish? type transport = m'.wish? type transport) : m = m' := by
  refine ext_of_get? fun type => ?_
  have hsame := hwish type
  cases hget : m.get? type with
  | none =>
    have hnone : ∀ transport, m'.wish? type transport = none := by
      intro transport
      rw [← hsame, wish?, hget]
      rfl
    rw [get?_eq_none_of_wish? h' hnone]
  | some wishes =>
    cases hget' : m'.get? type with
    | none =>
      have hnone : ∀ transport, m.wish? type transport = none := by
        intro transport
        rw [hsame, wish?, hget']
        rfl
      rw [get?_eq_none_of_wish? h hnone] at hget
      cases hget
    | some wishes' =>
      refine congrArg some (ext_of_get? fun transport => ?_)
      have hentry := hsame transport
      rwa [wish?, wish?, hget, hget'] at hentry

/-! ### Complete maps -/

/-- What is to be shown where `stored` is stored: a wish for every event type that can have events and
every transport, and nothing else. It is the stored wish, or else what the default says of a notification
of the type for nobody, or else a yes. -/
structure Completes (stored : PreferenceMap) (types transports : List String) (fallback : Provider)
    (shown : PreferenceMap) : Prop where
  filled : shown.IsFilled
  isSome_iff : ∀ type transport, (shown.wish? type transport).isSome ↔
    type ≠ "" ∧ type ∈ types ∧ transport ∈ transports
  wish : ∀ type ∈ types, type ≠ "" → ∀ transport ∈ transports, ∃ n, sample type = .ok n ∧
    n.context.type = type ∧ n.recipient = ∅ ∧ shown.wish? type transport =
      some ((stored.wish? type transport).getD ((fallback.wants n transport).value.getD true))

theorem completes_hydrate (stored : PreferenceMap) (types transports : List String)
    (fallback : Provider) :
    stored.Completes types transports fallback (stored.hydrate types transports fallback).value where
  filled := isFilled_hydrate stored types transports fallback
  isSome_iff type transport := by
    rw [wish?_hydrate]
    split
    · rename_i hlisted
      rw [isSome_sampleWish_iff]
      exact (and_iff_left hlisted).symm
    · rename_i hlisted
      simp [hlisted]
  wish type htype hne transport htransport := by
    obtain ⟨n, hsample⟩ := exists_sample hne
    have hsampleType := type_of_sample hsample
    refine ⟨n, hsample, hsampleType, recipient_of_sample hsample, ?_⟩
    rw [wish?_hydrate, if_pos ⟨htype, htransport⟩, sampleWish_of_ok stored fallback transport hsample,
      value_shownWish, hsampleType]

/-- Only what is listed counts. -/
theorem hydrate_congr {types types' transports transports' : List String}
    (htypes : ∀ type, type ∈ types' ↔ type ∈ types)
    (htransports : ∀ transport, transport ∈ transports' ↔ transport ∈ transports) :
    (stored.hydrate types' transports' fallback).value =
      (stored.hydrate types transports fallback).value := by
  refine (isFilled_hydrate _ _ _ _).ext (isFilled_hydrate _ _ _ _) fun type transport => ?_
  rw [wish?_hydrate, wish?_hydrate]
  exact if_congr (and_congr (htypes type) (htransports transport)) rfl rfl

/-- What is complete stays as it is. -/
theorem hydrate_hydrate (stored : PreferenceMap) (types transports : List String)
    (fallback : Provider) :
    ((stored.hydrate types transports fallback).value.hydrate types transports fallback).value =
      (stored.hydrate types transports fallback).value := by
  refine (isFilled_hydrate _ _ _ _).ext (isFilled_hydrate _ _ _ _) fun type transport => ?_
  rw [wish?_hydrate]
  split
  · rename_i hlisted
    unfold sampleWish
    split
    · rename_i n hsample
      have hsampleType := type_of_sample hsample
      rw [value_shownWish, hsampleType, wish?_hydrate, if_pos hlisted,
        sampleWish_of_ok stored fallback transport hsample]
      rfl
    · rename_i hsample
      rw [wish?_hydrate, if_pos hlisted, sampleWish, hsample]
  · rename_i hlisted
    rw [wish?_hydrate, if_neg hlisted]

/-- Hydration completes a map to the listed event types and transports. In which order they are listed,
and how often, does not matter, and hydrating once more changes nothing. -/
theorem hydrate_completes_in_any_order (stored : PreferenceMap) (types transports : List String)
    (fallback : Provider) :
    stored.Completes types transports fallback (stored.hydrate types transports fallback).value ∧
      (∀ types' transports', (∀ type, type ∈ types' ↔ type ∈ types) →
        (∀ transport, transport ∈ transports' ↔ transport ∈ transports) →
        (stored.hydrate types' transports' fallback).value =
          (stored.hydrate types transports fallback).value) ∧
      ((stored.hydrate types transports fallback).value.hydrate types transports fallback).value =
        (stored.hydrate types transports fallback).value :=
  ⟨completes_hydrate stored types transports fallback, fun _ _ => hydrate_congr,
    hydrate_hydrate stored types transports fallback⟩

theorem hydrate_completes_in_any_order_sample :
    let stored := (PreferenceMap.setWish ∅ "push" "slack" false).setWish "tag" "mail" false
    let shown := (stored.hydrate ["push", "build"] ["slack"] (.always false)).value
    (∃ n, sample "build" = .ok n ∧ n.context.type = "build" ∧ n.recipient = ∅ ∧
        shown.wish? "build" "slack" = some ((stored.wish? "build" "slack").getD
          (((Provider.always false).wants n "slack").value.getD true))) ∧
      shown.wish? "push" "slack" = some false ∧ shown.wish? "tag" "mail" = none ∧
      (stored.hydrate ["build", "push", "build"] ["slack", "slack"] (.always false)).value = shown ∧
      (shown.hydrate ["push", "build"] ["slack"] (.always false)).value = shown := by
  intro stored shown
  obtain ⟨hcompletes, hcongr, hagain⟩ :=
    hydrate_completes_in_any_order stored ["push", "build"] ["slack"] (.always false)
  have htypes : ∀ type, type ∈ ["build", "push", "build"] ↔ type ∈ ["push", "build"] := by
    simp [or_comm]
  exact ⟨hcompletes.wish "build" (by decide) (by decide) "slack" (by decide), by decide, by decide,
    hcongr _ _ htypes (by simp), hagain⟩

end Herald.PreferenceMap
