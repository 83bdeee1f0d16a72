import Herald.Proofs.Http.Pattern
import Herald.Proofs.Server.Discretion
import Herald.Proofs.Text.Order

/-!
What can be served. Options make a server unless something is wrong with them, and the first thing that
is wrong is the one reported. The server shows its sources in the order of their keys, and its transports
in the order in which they have their turns.
-/

namespace Herald

open Result

namespace Server

/-! ### Keys of transports -/

/-- A key is found if it stands among those before it, and is the first to do so. -/
theorem repeatedKey_eq_some_iff {earlier keys : List String} {key : String} :
    repeatedKey earlier keys = some key ↔
      ∃ before after, keys = before ++ key :: after ∧ before.Nodup ∧
        (∀ k ∈ before, k ∉ earlier) ∧ (key ∈ earlier ∨ key ∈ before) := by
  induction keys generalizing earlier with
  | nil => simp [repeatedKey]
  | cons first rest ih =>
    unfold repeatedKey
    split
    · rename_i hfirst
      have hmem : first ∈ earlier := List.contains_iff_mem.mp hfirst
      constructor
      · intro h
        cases h
        exact ⟨[], rest, rfl, List.nodup_nil, List.forall_mem_nil _, .inl hmem⟩
      · rintro ⟨before, after, heq, -, hfresh, -⟩
        cases before with
        | nil =>
          cases heq
          rfl
        | cons k before =>
          cases heq
          exact absurd hmem (hfresh first List.mem_cons_self)
    · rename_i hfirst
      have hfresh : first ∉ earlier := fun hmem => hfirst (List.contains_iff_mem.mpr hmem)
      rw [ih]
      constructor
      · rintro ⟨before, after, rfl, hnodup, hbefore, hkey⟩
        exact ⟨first :: before, after, rfl, by grind, by grind, by grind⟩
      · rintro ⟨before, after, heq, hnodup, hbefore, hkey⟩
        cases before with
        | nil =>
          cases heq
          exact absurd hkey (by simpa using hfresh)
        | cons k before =>
          cases heq
          exact ⟨before, after, rfl, by grind, by grind, by grind⟩

theorem repeatedKey_eq_none_iff {earlier keys : List String} :
    repeatedKey earlier keys = none ↔ keys.Nodup ∧ ∀ k ∈ keys, k ∉ earlier := by
  induction keys generalizing earlier with
  | nil => simp [repeatedKey]
  | cons first rest ih =>
    unfold repeatedKey
    split
    · rename_i hfirst
      simp [List.contains_iff_mem.mp hfirst]
    · rename_i hfirst
      have hfresh : first ∉ earlier := fun hmem => hfirst (List.contains_iff_mem.mpr hmem)
      rw [ih]
      grind

theorem firstRepeated_iff {keys : List String} {key : String} : repeatedKey [] keys = some key ↔
    ∃ before after, keys = before ++ key :: after ∧ before.Nodup ∧ key ∈ before := by
  simp [repeatedKey_eq_some_iff]

theorem noneRepeated_iff {keys : List String} : repeatedKey [] keys = none ↔ keys.Nodup := by
  simp [repeatedKey_eq_none_iff]

/-! ### Keys of sources -/

/-- A key of a source is not empty and made of lowercase letters, digits, `-` and `_`. -/
structure WellFormed (key : String) : Prop where
  ne_empty : key ≠ ""
  characters : ∀ c ∈ key.toList, ('a' ≤ c ∧ c ≤ 'z') ∨ ('0' ≤ c ∧ c ≤ '9') ∨ c = '-' ∨ c = '_'

theorem isKeyChar_iff {c : Char} :
    isKeyChar c ↔ ('a' ≤ c ∧ c ≤ 'z') ∨ ('0' ≤ c ∧ c ≤ '9') ∨ c = '-' ∨ c = '_' := by
  simp [isKeyChar, Char.isLower, Char.isDigit, Char.le_def, or_assoc]

theorem isSourceKey_iff {key : String} : isSourceKey key ↔ WellFormed key := by
  rw [isSourceKey, Bool.and_eq_true, bne_iff_ne, List.all_eq_true]
  simp only [isKeyChar_iff]
  exact ⟨fun h => ⟨h.1, h.2⟩, fun h => ⟨h.ne_empty, h.characters⟩⟩

/-- The keys are well formed, and none of them stands twice. -/
structure Distinct (keys : List String) : Prop where
  wellFormed : ∀ key ∈ keys, WellFormed key
  nodup : keys.Nodup

/-- What is wrong with a key after others. -/
inductive KeyFault (earlier : List String) (key : String) : Unfit → Prop
  | malformed (h : ¬WellFormed key) : KeyFault earlier key (.badSourceKey key)
  | repeated (h : WellFormed key) (hearlier : key ∈ earlier) :
      KeyFault earlier key (.duplicateSource key)

theorem KeyFault.congr {earlier earlier' : List String} {key : String} {fault : Unfit}
    (h : key ∈ earlier ↔ key ∈ earlier') : KeyFault earlier key fault ↔ KeyFault earlier' key fault := by
  constructor
  · rintro (hkey | ⟨hkey, hearlier⟩)
    · exact .malformed hkey
    · exact .repeated hkey (h.mp hearlier)
  · rintro (hkey | ⟨hkey, hearlier⟩)
    · exact .malformed hkey
    · exact .repeated hkey (h.mpr hearlier)

theorem distinct_cons {key : String} {keys : List String} :
    Distinct (key :: keys) ↔ WellFormed key ∧ key ∉ keys ∧ Distinct keys := by
  constructor
  · rintro ⟨hwell, hnodup⟩
    obtain ⟨hkey, hkeys⟩ := List.forall_mem_cons.mp hwell
    obtain ⟨hfresh, hrest⟩ := List.nodup_cons.mp hnodup
    exact ⟨hkey, hfresh, hkeys, hrest⟩
  · rintro ⟨hkey, hfresh, hkeys, hrest⟩
    exact ⟨List.forall_mem_cons.mpr ⟨hkey, hkeys⟩, List.nodup_cons.mpr ⟨hfresh, hrest⟩⟩

/-- An entry is turned down for what is wrong with its own key, or else the next one is looked at. -/
theorem register_cons (sources : Dictionary Source) (key : String) (source : Source)
    (rest : List (String × Source)) :
    (∃ fault, KeyFault sources.keys key fault ∧ register sources ((key, source) :: rest) = .error fault) ∨
      WellFormed key ∧ key ∉ sources.keys ∧
        register sources ((key, source) :: rest) = register (sources.set key source) rest := by
  rw [register]
  by_cases hwell : WellFormed key
  · rw [if_neg (by simpa using isSourceKey_iff.mpr hwell)]
    by_cases hkey : key ∈ sources.keys
    · rw [if_pos (Dictionary.hasKey_iff.mpr hkey)]
      exact .inl ⟨_, .repeated hwell hkey, rfl⟩
    · rw [if_neg (mt Dictionary.hasKey_iff.mp hkey)]
      exact .inr ⟨hwell, hkey, rfl⟩
  · rw [if_pos (by simpa using mt isSourceKey_iff.mp hwell)]
    exact .inl ⟨_, .malformed hwell, rfl⟩

theorem KeyFault.unique {earlier : List String} {key : String} {fault fault' : Unfit}
    (h : KeyFault earlier key fault) (h' : KeyFault earlier key fault') : fault = fault' := by
  cases h with
  | malformed hkey =>
    cases h' with
    | malformed => rfl
    | repeated hwell => exact absurd hwell hkey
  | repeated hwell =>
    cases h' with
    | malformed hkey => exact absurd hwell hkey
    | repeated => rfl

theorem KeyFault.not_fresh {earlier : List String} {key : String} {fault : Unfit}
    (h : KeyFault earlier key fault) (hwell : WellFormed key) : key ∈ earlier := by
  cases h with
  | malformed hkey => exact absurd hwell hkey
  | repeated _ hearlier => exact hearlier

/-- Of several keys that something is wrong with the first one counts. -/
theorem register_eq_error_iff {sources : Dictionary Source} {entries : List (String × Source)}
    {fault : Unfit} : register sources entries = .error fault ↔
      ∃ before key after, entries.map Prod.fst = before ++ key :: after ∧ Distinct before ∧
        (∀ k ∈ before, k ∉ sources.keys) ∧ KeyFault (sources.keys ++ before) key fault := by
  induction entries generalizing sources with
  | nil => simp [register]
  | cons entry rest ih =>
    obtain ⟨first, source⟩ := entry
    have hset : ∀ k, k ∈ (sources.set first source).keys ↔ k = first ∨ k ∈ sources.keys :=
      fun k => Dictionary.mem_keys_set
    obtain ⟨fault', hfault', heq⟩ | ⟨hwell, hfresh, heq⟩ := register_cons sources first source rest
    · rw [heq]
      constructor
      · intro h
        cases h
        exact ⟨[], first, _, rfl, ⟨List.forall_mem_nil _, List.nodup_nil⟩, List.forall_mem_nil _,
          by rwa [List.append_nil]⟩
      · rintro ⟨before, key, after, hkeys, hdistinct, hbefore, hfault⟩
        cases before with
        | nil =>
          cases hkeys
          rw [List.append_nil] at hfault
          rw [hfault'.unique hfault]
        | cons k before =>
          obtain ⟨rfl, -⟩ := List.cons.inj hkeys
          exact absurd (hfault'.not_fresh (distinct_cons.mp hdistinct).1)
            (hbefore first List.mem_cons_self)
    · rw [heq, ih]
      constructor
      · rintro ⟨before, key, after, hkeys, hdistinct, hbefore, hfault⟩
        refine ⟨first :: before, key, after, congrArg _ hkeys,
          distinct_cons.mpr ⟨hwell, by grind, hdistinct⟩, by grind, ?_⟩
        exact (KeyFault.congr (by grind)).mp hfault
      · rintro ⟨before, key, after, hkeys, hdistinct, hbefore, hfault⟩
        cases before with
        | nil =>
          cases hkeys
          rw [List.append_nil] at hfault
          exact absurd (hfault.not_fresh hwell) hfresh
        | cons k before =>
          obtain ⟨rfl, hrest⟩ := List.cons.inj hkeys
          obtain ⟨-, hnot, hdistinct⟩ := distinct_cons.mp hdistinct
          exact ⟨before, key, after, hrest, hdistinct, by grind, (KeyFault.congr (by grind)).mp hfault⟩

/-- If nothing is wrong the sources are all added. -/
theorem exists_register_iff {sources : Dictionary Source} {entries : List (String × Source)} :
    (∃ result, register sources entries = .ok result) ↔
      Distinct (entries.map Prod.fst) ∧ ∀ k ∈ entries.map Prod.fst, k ∉ sources.keys := by
  induction entries generalizing sources with
  | nil => exact ⟨fun _ => ⟨⟨List.forall_mem_nil _, List.nodup_nil⟩, List.forall_mem_nil _⟩,
      fun _ => ⟨sources, rfl⟩⟩
  | cons entry rest ih =>
    obtain ⟨first, source⟩ := entry
    rw [List.map_cons, distinct_cons]
    obtain ⟨fault, hfault, heq⟩ | ⟨hwell, hfresh, heq⟩ := register_cons sources first source rest
    · rw [heq]
      constructor
      · rintro ⟨_, h⟩
        cases h
      · rintro ⟨⟨hwell, -, -⟩, hfresh⟩
        exact absurd (hfault.not_fresh hwell) (hfresh first List.mem_cons_self)
    · rw [heq, ih]
      grind [Dictionary.mem_keys_set]

theorem perm_of_register {sources result : Dictionary Source} {entries : List (String × Source)}
    (h : register sources entries = .ok result) : result.toList.Perm (entries ++ sources.toList) := by
  induction entries generalizing sources with
  | nil =>
    cases h
    exact .refl _
  | cons entry rest ih =>
    obtain ⟨first, source⟩ := entry
    obtain ⟨fault, -, heq⟩ | ⟨-, hfresh, heq⟩ := register_cons sources first source rest
    · rw [heq] at h
      cases h
    · rw [heq] at h
      have hset : (rest ++ (sources.set first source).toList).Perm
          (rest ++ (first, source) :: sources.toList) :=
        (Dictionary.set_perm source hfresh).append_left rest
      exact (ih h).trans (hset.trans List.perm_middle)

/-! ### Options -/

/-- The options make a server. -/
structure Options.Fit (o : Options) : Prop where
  transports : o.transports ≠ []
  transportKeys : (o.transports.map Transport.key).Nodup
  sourceKeys : Distinct (o.sources.map Prod.fst)

/-- What is wrong with the options. Transports come before sources, and of each kind the first one
counts. -/
inductive Options.Fault (o : Options) : Unfit → Prop
  | noTransports (h : o.transports = []) : o.Fault .noTransports
  | transport {before after : List String} {key : String}
      (hkeys : o.transports.map Transport.key = before ++ key :: after) (hbefore : before.Nodup)
      (hkey : key ∈ before) : o.Fault (.duplicateTransport key)
  | source {before after : List String} {key : String} {fault : Unfit} (hsome : o.transports ≠ [])
      (htransports : (o.transports.map Transport.key).Nodup)
      (hkeys : o.sources.map Prod.fst = before ++ key :: after) (hbefore : Distinct before)
      (hfault : KeyFault before key fault) : o.Fault fault

variable {o : Options} {s : Server}

/-- The server has the parts that its options name. -/
structure MadeOf (o : Options) (s : Server) : Prop where
  sources : s.sources.toList.Perm o.sources
  transports : s.transports = o.transports

theorem build_of_transports (hsome : o.transports ≠ [])
    (hkeys : (o.transports.map Transport.key).Nodup) :
    build o = (register ∅ o.sources).map fun sources =>
      ⟨o.address, sources, o.processors, o.transports, o.store.getD (.ofUsers []),
        o.fallback.getD (.always true), o.pages⟩ := by
  rw [build, if_neg (by simpa using hsome), noneRepeated_iff.mpr hkeys]
  rfl

theorem build_eq_error_iff {fault : Unfit} : build o = .error fault ↔ o.Fault fault := by
  by_cases hsome : o.transports = []
  · rw [build, if_pos (by simpa using hsome)]
    constructor
    · intro h
      cases h
      exact .noTransports hsome
    · rintro (_ | ⟨hkeys, -, -⟩ | ⟨hne, -, -, -, -⟩)
      · rfl
      · simp [hsome] at hkeys
      · exact absurd hsome hne
  · cases hrepeated : repeatedKey [] (o.transports.map Transport.key) with
    | some key =>
      rw [build, if_neg (by simpa using hsome), hrepeated]
      constructor
      · intro h
        cases h
        obtain ⟨before, after, hkeys, hbefore, hkey⟩ := firstRepeated_iff.mp hrepeated
        exact .transport hkeys hbefore hkey
      · rintro (hnone | ⟨hkeys, hbefore, hkey⟩ | ⟨-, hnodup, -, -, -⟩)
        · exact absurd hnone hsome
        · obtain rfl := Option.some.inj
            (hrepeated.symm.trans (firstRepeated_iff.mpr ⟨_, _, hkeys, hbefore, hkey⟩))
          rfl
        · rw [noneRepeated_iff.mpr hnodup] at hrepeated
          cases hrepeated
    | none =>
      have hnodup := noneRepeated_iff.mp hrepeated
      rw [build_of_transports hsome hnodup, map_eq_error, register_eq_error_iff]
      constructor
      · rintro ⟨before, key, after, hkeys, hbefore, -, hfault⟩
        exact .source hsome hnodup hkeys hbefore hfault
      · rintro (hnone | ⟨hkeys, hbefore, hkey⟩ | ⟨-, -, hkeys, hbefore, hfault⟩)
        · exact absurd hnone hsome
        · rw [firstRepeated_iff.mpr ⟨_, _, hkeys, hbefore, hkey⟩] at hrepeated
          cases hrepeated
        · exact ⟨_, _, _, hkeys, hbefore, fun _ _ => List.not_mem_nil, hfault⟩

theorem exists_build_iff : (∃ s, build o = .ok s) ↔ o.Fit := by
  have hregister : (∃ sources, register ∅ o.sources = .ok sources) ↔
      Distinct (o.sources.map Prod.fst) :=
    exists_register_iff.trans (and_iff_left fun _ _ => List.not_mem_nil)
  constructor
  · rintro ⟨s, h⟩
    have hsome : o.transports ≠ [] := by
      intro hnone
      rw [build_eq_error_iff.mpr (.noTransports hnone)] at h
      cases h
    have hkeys : (o.transports.map Transport.key).Nodup := by
      rw [← noneRepeated_iff, Option.eq_none_iff_forall_ne_some]
      intro key hkey
      obtain ⟨before, after, hkeys, hbefore, hmem⟩ := firstRepeated_iff.mp hkey
      rw [build_eq_error_iff.mpr (.transport hkeys hbefore hmem)] at h
      cases h
    rw [build_of_transports hsome hkeys] at h
    obtain ⟨sources, hsources, -⟩ := map_eq_ok.mp h
    exact ⟨hsome, hkeys, hregister.mp ⟨sources, hsources⟩⟩
  · rintro ⟨hsome, hkeys, hdistinct⟩
    obtain ⟨sources, hsources⟩ := hregister.mpr hdistinct
    rw [build_of_transports hsome hkeys, hsources]
    exact ⟨_, rfl⟩

theorem madeOf_of_build (h : build o = .ok s) : MadeOf o s := by
  obtain ⟨hsome, hkeys, -⟩ := exists_build_iff.mp ⟨s, h⟩
  rw [build_of_transports hsome hkeys] at h
  obtain ⟨sources, hsources, rfl⟩ := map_eq_ok.mp h
  refine ⟨?_, rfl⟩
  have hperm := perm_of_register hsources
  rwa [show (∅ : Dictionary Source).toList = [] from rfl, List.append_nil] at hperm

/-! ### What a server shows -/

/-- The page that lists these sources and transports in this order. -/
def listing (sources : List (String × Source)) (transports : List Transport) : Json :=
  .object [
    ("sources", .array (sources.map fun (key, source) =>
      .object [("event_types", .array (source.eventTypes.map EventType.toJson)),
        ("key", .string key)])),
    ("transports", .array (transports.map fun t => .object [("key", .string t.key)]))]

/-- No page stands in place of the one that lists sources and transports. -/
theorem Page.pattern_ne_configuration (p : Page) :
    p.pattern ≠ .literal "/configuration".toList := by
  intro hpattern
  have htext : Http.Pattern.ofString p.text = Http.Pattern.ofString configurationPattern := hpattern
  have hfree := p.free
  simp [isFree, htext] at hfree

theorem route_configuration {r : Http.Request} (hpath : r.path? = some "/configuration".toList) :
    s.route r = some .configuration := by
  have hown : Route.ofSegments (Http.segments "/configuration".toList) = some .configuration := rfl
  rw [route, hpath, Option.bind_eq_bind, Option.bind_some, hown]
  dsimp only
  cases hpage : Http.Pattern.lookup "/configuration".toList
      (s.pages.map fun page => (page.pattern, page.answer)) with
  | none => rfl
  | some found =>
    obtain ⟨hmem, hfits⟩ := Http.Pattern.lookup_eq_some hpage
    obtain ⟨page, -, rfl⟩ := List.mem_map.mp hmem
    have hgt := (Http.Pattern.compare_literal hfits).resolve_left page.pattern_ne_configuration
    have hpattern : Route.configuration.pattern = .literal "/configuration".toList := rfl
    dsimp only
    rw [hpattern, hgt]

/-- The server shows its sources and transports, and has the transports visited in the order in which they
were named. -/
structure Presents (o : Options) (s : Server) : Prop where
  turns : ∀ (n : Notification) (token : Token) (tl : Timeline), ∃ turns,
    Timeline.HasTurns ((o.transports.map Transport.key).map (Prod.mk n))
      (Notifier.push n token (s.notifier, tl)).1.isSome turns tl
      (Notifier.push n token (s.notifier, tl)).2.2
  visits : ∀ (n : Notification) (token : Token) (tl : Timeline), ∃ visits unvisited left,
    s.notifier.Accounts n token tl visits unvisited left ∧
      visits.map (fun v => v.transport.key) ++ unvisited.map Transport.key =
        o.transports.map Transport.key
  configuration : ∃ listed : List (String × Source), listed.Perm o.sources ∧
    listed.Pairwise (fun a b => a.1 < b.1) ∧
    ∀ (arrival : Arrival) (r : Http.Request) (tl : Timeline), r.method = "GET" →
      r.path? = some "/configuration".toList →
        (handle arrival r (s, tl)).1 = some ⟨.ok, .json (listing listed o.transports)⟩
  types_ascending : s.eventTypes.Pairwise (· < ·)
  mem_types : ∀ type, type ∈ s.eventTypes ↔
    ∃ entry ∈ o.sources, ∃ declared ∈ entry.2.eventTypes, declared.key = type

theorem mem_eventTypes_iff {type : String} : type ∈ s.eventTypes ↔
    ∃ entry ∈ s.sources.toList, ∃ declared ∈ entry.2.eventTypes, declared.key = type := by
  unfold eventTypes Dictionary.values
  rw [Ascending.mem_ofList_id]
  simp only [List.mem_map, List.mem_flatMap, exists_exists_and_eq_and]
  constructor
  · rintro ⟨declared, ⟨entry, hentry, hdeclared⟩, htype⟩
    exact ⟨entry, hentry, declared, hdeclared, htype⟩
  · rintro ⟨entry, hentry, declared, hdeclared, htype⟩
    exact ⟨declared, ⟨entry, hentry, hdeclared⟩, htype⟩

theorem presents_of_twins {made : Server} (h : MadeOf o made) (htwins : Twins made s) :
    Presents o s where
  turns n token tl := by
    obtain ⟨-, -, turns, hturns⟩ := Notifier.dispatches_push n token s.notifier tl
    have hkeys : s.notifier.transports.map Transport.key = o.transports.map Transport.key := by
      rw [← h.transports]
      exact htwins.transports
    rw [hkeys] at hturns
    exact ⟨turns, hturns.toHasTurns⟩
  visits n token tl := by
    obtain ⟨d, -, left, haccounts⟩ := s.notifier.exists_accounts n token tl
    refine ⟨d.visits, d.unvisited, left, haccounts, ?_⟩
    rw [← haccounts.keys_eq, ← h.transports]
    exact htwins.transports
  configuration := by
    refine ⟨s.sources.toList, htwins.sources ▸ h.sources,
      s.sources.ascending.imp Text.compare_text_eq_lt_iff.mp, fun arrival r tl hmethod hpath => ?_⟩
    have hroute : s.route r = some .configuration := route_configuration hpath
    have hallows : Route.configuration.allows r.method := by simp [Route.allows, isReading, hmethod]
    rw [handle_of_allows arrival tl hroute hallows]
    have hkeys : s.transportKeys = o.transports.map Transport.key := by
      rw [htwins.transports, transportKeys, h.transports]
    simp [answer, hmethod, configuration, listing, hkeys, sourceJson, Function.comp_def]
  types_ascending := by
    have hascending : s.eventTypes.Pairwise fun type type' => compare type type' = .lt :=
      Ascending.ascending _
    exact hascending.imp Text.compare_text_eq_lt_iff.mp
  mem_types type := by
    rw [mem_eventTypes_iff, htwins.sources]
    simp only [h.sources.mem_iff]

/-- Options make a server exactly if nothing is wrong with them; otherwise what is wrong first is
reported. The server shows its sources in the order of their keys and its transports in the order of their
turns, and declares just the types that its sources declare, whatever it has been asked. -/
theorem build_admits_fit_options (o : Options) :
    ((∃ s, build o = .ok s) ↔ o.Fit) ∧ (∀ fault, build o = .error fault ↔ o.Fault fault) ∧
      ∀ s, build o = .ok s → ∀ visits : List Visit, Presents o (s.after visits) :=
  ⟨exists_build_iff, fun _ => build_eq_error_iff,
    fun s h visits => presents_of_twins (madeOf_of_build h) (twins_after s visits)⟩

/-- Two sources, not in the order of their keys, and two transports. -/
def sampleOptions : Options :=
  { Options.blank with
    sources := [("mail", .messages), ("chat", .messages)]
    transports := [.ofEndpoint (.writer none), .ofEndpoint .blackhole] }

/-- A third source has a bad key, and a fourth one a key that is taken. -/
theorem build_admits_fit_options_sample :
    ∃ s, build sampleOptions = .ok s ∧ Presents sampleOptions (s.after [samplePost]) ∧
      build { sampleOptions with
        sources := sampleOptions.sources ++ [("Mail", .messages), ("mail", .messages)] } =
          .error (.badSourceKey "Mail") := by
  obtain ⟨hfit, -, hpresents⟩ := build_admits_fit_options sampleOptions
  have hmail : WellFormed "mail" := isSourceKey_iff.mp (by decide)
  have hchat : WellFormed "chat" := isSourceKey_iff.mp (by decide)
  have hdistinct : Distinct ["mail", "chat"] := ⟨by simp [hmail, hchat], by decide⟩
  obtain ⟨s, hbuild⟩ := hfit.mpr ⟨List.cons_ne_nil _ _, by decide, hdistinct⟩
  have hbad : ¬WellFormed "Mail" := mt isSourceKey_iff.mpr (by decide)
  exact ⟨s, hbuild, hpresents s hbuild [samplePost], ((build_admits_fit_options _).2.1 _).mpr
    (.source (List.cons_ne_nil _ _) (by decide) rfl hdistinct (.malformed hbad))⟩

end Server

end Herald
