import Herald.Proofs.Preference.Consultation
import Herald.Proofs.Server.Routing
import Herald.Proofs.Transport.Ending
import Herald.Server.Startup

/-!
Startup checks. The parts of a server that have a check make it one after another, up to the first that
fails. Of the default preference only the outermost provider is asked: a chain has no check, so whatever is
wrong inside it goes unnoticed.
-/

namespace Herald

theorem Provider.leaves_of_not_chain {p : Provider} (h : ∀ ps, p ≠ .chain ps) : p.leaves = [p] := by
  cases p with
  | chain ps => exact absurd rfl (h ps)
  | _ => rfl

namespace Server

/-- A part of a server that may have something to check. -/
inductive Component where
  | source (key : String) (source : Source)
  | processor (p : Processor)
  | transport (t : Transport)
  | store (store : UserStore)
  | fallback (p : Provider)

def Component.name : Component → String
  | .source key _ => s!"parser {key}"
  | .processor p => s!"processor {p.name}"
  | .transport t => s!"transport {t.key}"
  | .store _ => "user store"
  | .fallback _ => "default preference"

/-- The check of a component that is no transport, if it has one. -/
def Component.check? : Component → Option Check
  | .source _ origin => origin.startupCheck
  | .processor p => p.startupCheck
  | .transport _ => none
  | .store users => users.startupCheck
  | .fallback p => p.startupCheck

/-- True if there is something to check. The layers around an endpoint do not matter. -/
def Component.hasCheck : Component → Bool
  | .transport t => t.endpoint.hasCheck
  | c => c.check?.isSome

/-- The sources of a server in the order of their keys, and its processors. -/
def earlyComponents (s : Server) : List Component :=
  s.sources.toList.map (fun (key, source) => .source key source) ++ s.processors.map .processor

/-- The store and the default preference of a server. -/
def lateComponents (s : Server) : List Component :=
  [.store s.store, .fallback s.fallback]

/-- The parts of a server in the order in which they are checked. -/
def components (s : Server) : List Component :=
  s.earlyComponents ++ (s.transports.map .transport ++ s.lateComponents)

/-- The component makes its check, with this result, and is left like this. There is no result if the
check waits for ever. -/
inductive Component.Checks (token : Token) :
    Component → Timeline → Option (Except ValidationError Unit) → Component → Timeline → Prop
  | own {c : Component} {check : Check} {result : Option (Except ValidationError Unit)}
      {tl tl' : Timeline} (hcheck : c.check? = some check)
      (h : check token (reportCheck c.name tl) = (result, tl')) : Checks token c tl result c tl'
  | endpoint (layers : List Layer) {e e' : Endpoint}
      {result : Option (Except ValidationError Unit)} {tl tl' : Timeline} (hcheck : e.hasCheck)
      (h : Endpoint.check token (e, reportCheck (Component.transport ⟨layers, e⟩).name tl) =
        (result, e', tl')) :
      Checks token (.transport ⟨layers, e⟩) tl result (.transport ⟨layers, e'⟩) tl'

/-- All of the components that have a check make it, one after another, and all checks pass. -/
inductive AllPass (token : Token) : List Component → Timeline → List Component → Timeline → Prop
  | nil (tl : Timeline) : AllPass token [] tl [] tl
  | skip {c : Component} {cs cs' : List Component} {tl tl' : Timeline} (h : c.hasCheck = false)
      (hrest : AllPass token cs tl cs' tl') : AllPass token (c :: cs) tl (c :: cs') tl'
  | cons {c c' : Component} {cs cs' : List Component} {tl tl' tl'' : Timeline}
      (h : c.Checks token tl (some (.ok ())) c' tl') (hrest : AllPass token cs tl' cs' tl'') :
      AllPass token (c :: cs) tl (c' :: cs') tl''

/-- How the checks of components end: all pass, or one fails or waits for ever, and those after it are
not made. -/
inductive Checked (token : Token) (tl : Timeline) : List Component →
    Option (Except ValidationError Unit) → List Component → Timeline → Prop
  | passed {cs cs' : List Component} {tl' : Timeline} (h : AllPass token cs tl cs' tl') :
      Checked token tl cs (some (.ok ())) cs' tl'
  | stopped {before before' : List Component} {c c' : Component}
      {result : Option (Except ValidationError Unit)} {tl' tl'' : Timeline}
      (hbefore : AllPass token before tl before' tl') (h : c.Checks token tl' result c' tl'')
      (hresult : result ≠ some (.ok ())) (after : List Component) :
      Checked token tl (before ++ c :: after) result (before' ++ c' :: after) tl''

variable {s : Server} {token : Token} {c c' : Component} {cs cs' more more' : List Component}
  {result : Option (Except ValidationError Unit)} {tl tl' tl'' : Timeline}

/-! ### Components one after another -/

theorem AllPass.append (h : AllPass token cs tl cs' tl') (h' : AllPass token more tl' more' tl'') :
    AllPass token (cs ++ more) tl (cs' ++ more') tl'' := by
  induction h with
  | nil tl => exact h'
  | skip hnone _ ih => exact .skip hnone (ih h')
  | cons hcheck _ ih => exact .cons hcheck (ih h')

/-- Whatever has a check passed it. -/
theorem AllPass.exists_checks (h : AllPass token cs tl cs' tl') :
    ∀ c ∈ cs, c.hasCheck → ∃ began c' ended, c.Checks token began (some (.ok ())) c' ended := by
  induction h with
  | nil tl => exact List.forall_mem_nil _
  | skip hnone _ ih =>
    exact List.forall_mem_cons.mpr ⟨fun hcheck => absurd (hcheck.symm.trans hnone) nofun, ih⟩
  | cons hcheck _ ih => exact List.forall_mem_cons.mpr ⟨fun _ => ⟨_, _, _, hcheck⟩, ih⟩

theorem Checked.allPass (h : Checked token tl cs (some (.ok ())) cs' tl') :
    AllPass token cs tl cs' tl' := by
  cases h with
  | passed h => exact h
  | stopped _ _ hresult => exact absurd rfl hresult

theorem AllPass.checked_append (h : AllPass token cs tl cs' tl')
    (h' : Checked token tl' more result more' tl'') :
    Checked token tl (cs ++ more) result (cs' ++ more') tl'' := by
  cases h' with
  | passed hmore => exact .passed (h.append hmore)
  | stopped hbefore hstop hresult after =>
    rw [← List.append_assoc, ← List.append_assoc]
    exact .stopped (h.append hbefore) hstop hresult after

/-- Components after one that does not pass stay as they are. -/
theorem Checked.before (h : Checked token tl cs result cs' tl') (hresult : result ≠ some (.ok ()))
    (more : List Component) : Checked token tl (cs ++ more) result (cs' ++ more) tl' := by
  cases h with
  | passed => exact absurd rfl hresult
  | stopped hbefore hstop _ after =>
    rw [List.append_assoc, List.append_assoc]
    exact .stopped hbefore hstop hresult (after ++ more)

theorem Checked.skip (h : Checked token tl cs result cs' tl') (hnone : c.hasCheck = false) :
    Checked token tl (c :: cs) result (c :: cs') tl' :=
  AllPass.checked_append (.skip hnone (.nil tl)) h

theorem Checked.cons (hcheck : c.Checks token tl (some (.ok ())) c' tl')
    (h : Checked token tl' cs result cs' tl'') : Checked token tl (c :: cs) result (c' :: cs') tl'' :=
  AllPass.checked_append (.cons hcheck (.nil tl')) h

theorem Checked.stop (hcheck : c.Checks token tl result c' tl') (hresult : result ≠ some (.ok ()))
    (cs : List Component) : Checked token tl (c :: cs) result (c' :: cs) tl' :=
  .stopped (.nil tl) hcheck hresult cs

/-! ### The checks of a server -/

theorem checked_runChecks (hcs : ∀ c ∈ cs, c.hasCheck = c.check?.isSome) (tl : Timeline) :
    Checked token tl cs (runChecks token (cs.map fun c => (c.name, c.check?)) tl).1 cs
      (runChecks token (cs.map fun c => (c.name, c.check?)) tl).2 := by
  induction cs generalizing tl with
  | nil => exact .passed (.nil tl)
  | cons c rest ih =>
    obtain ⟨hc, hrest⟩ := List.forall_mem_cons.mp hcs
    rw [List.map_cons]
    cases hcheck : c.check? with
    | none => exact (ih hrest tl).skip (by rw [hc, hcheck]; rfl)
    | some check =>
      unfold runChecks
      split
      · rename_i hpassed
        exact .cons (.own hcheck hpassed) (ih hrest _)
      · rename_i hstopped
        exact .stop (.own hcheck rfl) (fun hpassed => hstopped _ (Prod.ext hpassed rfl)) rest

/-- A transport changes nothing but its endpoint by a check. -/
theorem checks_transport (token : Token) {t : Transport} (h : t.hasCheck) (tl : Timeline) :
    (Component.transport t).Checks token tl
      (Transport.check token (t, reportCheck s!"transport {t.key}" tl)).1
      (.transport (Transport.check token (t, reportCheck s!"transport {t.key}" tl)).2.1)
      (Transport.check token (t, reportCheck s!"transport {t.key}" tl)).2.2 := by
  rw [Transport.hasCheck_eq] at h
  rw [Transport.check_eq]
  exact .endpoint t.layers h rfl

theorem checked_checkTransports (token : Token) (ts : List Transport) (tl : Timeline) :
    Checked token tl (ts.map .transport) (checkTransports token ts tl).1
      ((checkTransports token ts tl).2.1.map .transport) (checkTransports token ts tl).2.2 := by
  induction ts generalizing tl with
  | nil => exact .passed (.nil tl)
  | cons t rest ih =>
    unfold checkTransports
    split
    · rename_i hcheck
      have hchecks := checks_transport token hcheck tl
      split
      · rename_i hpassed
        rw [hpassed] at hchecks
        exact .cons hchecks (ih _)
      · rename_i hstopped hmade
        rw [hmade] at hchecks
        exact .stop hchecks hstopped _
    · rename_i hnone
      rw [Transport.hasCheck_eq] at hnone
      exact (ih tl).skip (Bool.eq_false_iff.mpr hnone)

theorem checked_earlyChecks (token : Token) (s : Server) (tl : Timeline) :
    Checked token tl s.earlyComponents (runChecks token s.earlyChecks tl).1 s.earlyComponents
      (runChecks token s.earlyChecks tl).2 := by
  have hchecks : s.earlyChecks = s.earlyComponents.map fun c => (c.name, c.check?) := by
    simp only [earlyChecks, earlyComponents, List.map_append, List.map_map]
    rfl
  rw [hchecks]
  refine checked_runChecks (List.forall_mem_append.mpr ⟨?_, ?_⟩) tl
  · exact List.forall_mem_map.mpr fun _ _ => rfl
  · exact List.forall_mem_map.mpr fun _ _ => rfl

theorem checked_lateChecks (token : Token) (s : Server) (tl : Timeline) :
    Checked token tl s.lateComponents (runChecks token s.lateChecks tl).1 s.lateComponents
      (runChecks token s.lateChecks tl).2 :=
  checked_runChecks (by simp [lateComponents, Component.hasCheck]) tl

/-- A validation makes the checks of all components in order, up to the first that does not pass. -/
theorem checked_validate (token : Token) (s : Server) (tl : Timeline) :
    Checked token tl s.components (validate token (s, tl)).1
      (validate token (s, tl)).2.1.components (validate token (s, tl)).2.2 := by
  have hearly := checked_earlyChecks token s tl
  unfold validate
  dsimp only
  split
  · rename_i tl₁ hran
    rw [hran] at hearly
    have htransports := checked_checkTransports token s.transports tl₁
    split
    · rename_i hpassed
      rw [hpassed] at htransports
      have hlate := checked_lateChecks token
        { s with transports := (checkTransports token s.transports tl₁).2.1 }
        (checkTransports token s.transports tl₁).2.2
      exact hearly.allPass.checked_append (htransports.allPass.checked_append hlate)
    · rename_i hstopped
      exact hearly.allPass.checked_append (htransports.before hstopped _)
  · rename_i result tl₁ hstopped hran
    rw [hran] at hearly
    exact hearly.before hstopped _

/-! ### Default preferences -/

/-- A provider whose check does not pass and is not found by a validation is inside a chain. -/
theorem passes_or_chain_of_passed (hpassed : (validate token (s, tl)).1 = some (.ok ()))
    {leaf : Provider} (hleaf : leaf ∈ s.fallback.leaves) {check : Check}
    (hcheck : leaf.startupCheck = some check) :
    check.Passes token ∨ ∃ ps, s.fallback = .chain ps := by
  rw [or_iff_not_imp_right]
  intro hnone
  rw [Provider.leaves_of_not_chain (not_exists.mp hnone), List.mem_singleton] at hleaf
  subst hleaf
  have hchecked := checked_validate token s tl
  rw [hpassed] at hchecked
  have hmem : .fallback s.fallback ∈ s.components := by
    simp [components, lateComponents]
  have hasCheck : (Component.fallback s.fallback).hasCheck := by
    simp [Component.hasCheck, Component.check?, hcheck]
  obtain ⟨began, c', ended, hchecks⟩ := hchecked.allPass.exists_checks _ hmem hasCheck
  cases hchecks with
  | own hown hmade =>
    cases hown.symm.trans hcheck
    exact ⟨_, _, hmade⟩

/-- What is inside a chain makes no difference to a validation. -/
theorem validate_chain (token : Token) (s : Server) (tl : Timeline) (ps qs : List Provider) :
    (validate token ({ s with fallback := .chain ps }, tl)).1 =
        (validate token ({ s with fallback := .chain qs }, tl)).1 ∧
      (validate token ({ s with fallback := .chain ps }, tl)).2.2 =
        (validate token ({ s with fallback := .chain qs }, tl)).2.2 := by
  have hlate : ∀ (ts : List Transport) (ps : List Provider),
      lateChecks { s with transports := ts, fallback := .chain ps } =
        [("user store", s.store.startupCheck), ("default preference", none)] := fun _ _ => rfl
  have hearly : ∀ ps : List Provider, earlyChecks { s with fallback := .chain ps } = s.earlyChecks :=
    fun _ => rfl
  unfold validate
  dsimp only
  simp only [hearly, hlate]
  split
  · split <;> exact ⟨rfl, rfl⟩
  · exact ⟨rfl, rfl⟩

/-- A validation makes the checks of sources, processors, transports, store and default preference in
this order, up to the first that does not pass. If it succeeds, all of them pass, and so do those of all
providers in the default preference that are not inside a chain; what is inside a chain is not looked
at. -/
theorem validate_passes_over_chains (token : Token) (s : Server) (tl : Timeline) :
    Checked token tl s.components (validate token (s, tl)).1
        (validate token (s, tl)).2.1.components (validate token (s, tl)).2.2 ∧
    ((validate token (s, tl)).1 = some (.ok ()) →
      (∀ c ∈ s.components, c.hasCheck →
        ∃ began c' ended, c.Checks token began (some (.ok ())) c' ended) ∧
      ∀ leaf ∈ s.fallback.leaves, ∀ check, leaf.startupCheck = some check →
        check.Passes token ∨ ∃ ps, s.fallback = .chain ps) ∧
    ∀ ps qs : List Provider,
      (validate token ({ s with fallback := .chain ps }, tl)).1 =
          (validate token ({ s with fallback := .chain qs }, tl)).1 ∧
        (validate token ({ s with fallback := .chain ps }, tl)).2.2 =
          (validate token ({ s with fallback := .chain qs }, tl)).2.2 := by
  have hchecked := checked_validate token s tl
  refine ⟨hchecked, fun hpassed => ⟨?_, ?_⟩, validate_chain token s tl⟩
  · rw [hpassed] at hchecked
    exact hchecked.allPass.exists_checks
  · exact fun _ hleaf _ hcheck => passes_or_chain_of_passed hpassed hleaf hcheck

/-- A complaint of a component that is not fit for use. -/
def sampleComplaint : ValidationError :=
  ⟨"test", "nested", none⟩

/-- A provider that is not fit for use, inside a chain. -/
def chainedServer : Server :=
  { sampleServer with fallback := .chain [.fixed none (some (.of (.error sampleComplaint)))] }

/-- A provider fails its check and the server passes its validation. -/
theorem validate_misses_chained_check :
    (validate .requests (chainedServer, .start none)).1 = some (.ok ()) ∧
      ∃ leaf ∈ chainedServer.fallback.leaves, ∃ check, leaf.startupCheck = some check ∧
        ∀ token tl, (check token tl).1 = some (.error sampleComplaint) :=
  ⟨rfl, .fixed none (some (.of (.error sampleComplaint))), List.mem_singleton_self _, _, rfl,
    fun _ _ => rfl⟩

/-- A database of which nothing can be asked. -/
def brokenStore : UserStore :=
  ⟨.table [], some ⟨[], some "disk I/O error", none⟩⟩

/-- The check of a database passes, is called off, or finds it broken; and the check of a transport that
is not fit is made behind two layers. -/
theorem validate_passes_over_chains_sample :
    let s := { sampleServer with store := .emptyTable }
    let t : Transport := ⟨[.logging .info, .timeout (.ofSeconds 1)],
      .scripted "t" [] (some (.of (.error sampleComplaint)))⟩
    (validate .requests (s, .start none)).1 = some (.ok ()) ∧
      (∃ began c' ended,
        (Component.store s.store).Checks .requests began (some (.ok ())) c' ended) ∧
      (∃ cs' tl', Checked .requests ((Timeline.start none).cancel .requests) s.components
        (some (.error ⟨UserStore.tableName, "cancelled", none⟩)) cs' tl') ∧
      (∃ cs' tl', Checked .requests (.start none) { s with store := brokenStore }.components
        (some (.error ⟨UserStore.tableName, "database check failed",
          some "user store error: disk I/O error"⟩)) cs' tl') ∧
      ∃ cs' tl', Checked .requests (.start none) { s with transports := [t] }.components
        (some (.error sampleComplaint)) cs' tl' := by
  intro s t
  obtain ⟨-, hpassed, -⟩ := validate_passes_over_chains .requests s (.start none)
  have hok : (validate .requests (s, .start none)).1 = some (.ok ()) := rfl
  have hstore : .store s.store ∈ s.components := by
    simp [components, lateComponents]
  have hcancelled :=
    (validate_passes_over_chains .requests s ((Timeline.start none).cancel .requests)).1
  have hbroken :=
    (validate_passes_over_chains .requests { s with store := brokenStore } (.start none)).1
  have hunfit := (validate_passes_over_chains .requests { s with transports := [t] } (.start none)).1
  exact ⟨hok, (hpassed hok).1 _ hstore rfl, ⟨_, _, hcancelled⟩, ⟨_, _, hbroken⟩, _, _, hunfit⟩

end Server

end Herald
