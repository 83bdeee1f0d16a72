import Herald.Proofs.Processor.Origin
import Herald.Settings.Build

/-!
The chain of processors that the settings choose. Nobody who is addressed gets lost, nobody is
notified twice, and what is for nobody goes where the settings say. Whatever the store does, the chain
fails only on a payload that is rejected.
-/

namespace Herald

open Result

/-! ### Generation -/

/-- The notifications that an event calls for, before anybody is looked up. -/
def Event.generated (e : Event) : Except ProcessError (List Notification) :=
  match e.content with
  | .message m => .ok [(Processor.ofMessage e.context m).value]
  | .delivery d => Forge.notifications e.context d

namespace Processor

theorem value_process_forge (store : UserStore) (context : Context) (d : Delivery) :
    (process store ⟨context, .delivery d⟩ [] .forge).value = Forge.notifications context d := by
  simp only [process, generateForge]
  cases Forge.notifications context d <;> rfl

theorem value_generation (store : UserStore) (e : Event) :
    (runChain store [.messages, .forge] e).value = e.generated := by
  obtain ⟨context, content⟩ := e
  cases content with
  | message m => rfl
  | delivery d =>
    have hmessages : (process store ⟨context, .delivery d⟩ [] .messages).value = .ok [] := rfl
    have hforge := value_process_forge store context d
    rw [runChain, runOn_cons_of_ok hmessages, Event.generated]
    dsimp only
    cases hmade : Forge.notifications context d with
    | error failure => rw [runOn_cons_of_error (hforge.trans hmade)]
    | ok made =>
      rw [runOn_cons_of_ok (hforge.trans hmade)]
      rfl

theorem generated_eq_error {e : Event} {failure : ProcessError} :
    e.generated = .error failure ↔ ∃ d, e.content = .delivery d ∧
      Forge.notifications e.context d = .error failure := by
  unfold Event.generated
  cases e.content <;> simp

theorem context_generated {e : Event} {made : List Notification} (h : e.generated = .ok made) :
    About e made := by
  have hchain := (value_generation (.ofUsers []) e).trans h
  exact about_runChain (by simp [isBuiltIn]) hchain

/-- Only a message can be for nobody, and then there is nothing else. -/
theorem eq_singleton_of_generated {e : Event} {made : List Notification}
    (h : e.generated = .ok made) {n : Notification} (hn : n ∈ made) (hempty : n.recipient.isEmpty) :
    made = [n] := by
  unfold Event.generated at h
  split at h
  · cases h
    rw [List.mem_singleton.mp hn]
  · have hsomebody := (Forge.addresses_notifications h n hn).somebody
    rw [hempty] at hsomebody
    cases hsomebody

/-- What is left of notifications once they are completed and merged. -/
def merged (store : UserStore) (context : Context) (ns : List Notification) :
    List Notification :=
  (mergeDuplicates context (enrichAll store context ns).value).value

end Processor

namespace Settings

open Processor

/-- What the last processor makes of the notifications. -/
def finish (s : Settings) (ns : List Notification) : List Notification :=
  if s.blackhole then ns.map (route unaddressed) else ns.filter fun n => !n.recipient.isEmpty

/-- Recipients are completed, notifications for the same person merged, and those for nobody dropped
or addressed elsewhere. -/
theorem value_runChain (s : Settings) (store : UserStore) (e : Event) :
    (runChain store s.processors e).value = e.generated.map fun made =>
      s.finish (merged store e.context made) := by
  have hsplit : s.processors = [.messages, .forge] ++ [.enrich, .deduplicate,
      if s.blackhole then .routeUnaddressed unaddressed else .dropUnaddressed] := rfl
  rw [runChain, hsplit, value_runOn_append, ← runChain, value_generation]
  cases e.generated with
  | error failure => rfl
  | ok made =>
    unfold finish
    cases s.blackhole with
    | true => rfl
    | false => exact congrArg Except.ok (value_keepAddressed e.context _)

theorem finish_of_addressed (s : Settings) {ns : List Notification}
    (h : ∀ n ∈ ns, n.recipient.isEmpty = false) : s.finish ns = ns := by
  unfold finish
  split
  · refine (List.map_congr_left fun n hn => ?_).trans (List.map_id ns)
    rw [route, h n hn]
    rfl
  · refine List.filter_eq_self.mpr fun n hn => ?_
    rw [h n hn]
    rfl

/-- A single notification for nobody is dropped or addressed elsewhere. -/
theorem finish_of_empty (s : Settings) (store : UserStore) (context : Context) {n : Notification}
    (h : n.recipient.isEmpty) :
    s.finish (merged store context [n]) =
      if s.blackhole then [n.withRecipient (.singleton unaddressed)] else [] := by
  have hsame := (completes_enrichOne store context n).unknown (find_empty store h)
  rw [merged, value_enrichAll, List.map_singleton, hsame, value_mergeDuplicates_singleton, finish,
    List.map_singleton, route, if_pos h]
  simp [h]

/-- Who is for somebody stays for somebody. -/
theorem addressed_merged (store : UserStore) (context : Context) {made : List Notification}
    (h : ∀ n ∈ made, n.recipient.isEmpty = false) :
    ∀ x ∈ merged store context made, x.recipient.isEmpty = false := by
  intro x hx
  rw [Bool.eq_false_iff]
  intro hempty
  have hblank : true ∈ blanks (merged store context made) := List.mem_map.mpr ⟨x, hx, hempty⟩
  rw [merged, mem_blanks_mergeDuplicates, blanks_enrichAll] at hblank
  obtain ⟨n, hn, hblank⟩ := List.mem_map.mp hblank
  rw [h n hn] at hblank
  cases hblank

/-- Every key of a recipient is a key of one of the recipients that are left. -/
theorem exists_keysWithin_merged (store : UserStore) (context : Context) {made : List Notification}
    {n : Notification} (hn : n ∈ made) :
    ∃ x ∈ merged store context made, n.recipient.KeysWithin x.recipient := by
  have hcompleted : (enrichOne store context n).value ∈ (enrichAll store context made).value := by
    rw [value_enrichAll]
    exact List.mem_map_of_mem hn
  obtain ⟨i, hi⟩ := List.mem_iff_getElem?.mp hcompleted
  obtain ⟨x, hx, g, -, hig, hstands⟩ := exists_standsFor_of_getElem? context hi
  have hwithin := (completes_enrichOne store context n).keysWithin
  exact ⟨x, hx, fun k hk => hstands.keysWithin i hig _ hi k (hwithin k hk)⟩

/-- What comes of the notifications that an event calls for: each is for somebody and about the event,
no two share an identifier, nobody who is addressed is left out, and what is for nobody goes to the
place for the unaddressed, or nowhere. -/
structure Serves (s : Settings) (e : Event) (made out : List Notification) : Prop where
  addressed : ∀ x ∈ out, x.recipient.isEmpty = false
  about : ∀ x ∈ out, x.context = e.context
  disjoint : out.Pairwise fun x y => ∀ id, ¬(x.recipient.holds id ∧ y.recipient.holds id)
  kept : ∀ n ∈ made, n.recipient.isEmpty = false → ∃ x ∈ out, n.recipient.KeysWithin x.recipient
  unaddressed : ∀ n ∈ made, n.recipient.isEmpty →
    out = if s.blackhole then [n.withRecipient (.singleton unaddressed)] else []

theorem serves_of_addressed (s : Settings) (store : UserStore) {e : Event}
    {made : List Notification} (habout : About e made)
    (h : ∀ n ∈ made, n.recipient.isEmpty = false) :
    s.Serves e made (s.finish (merged store e.context made)) := by
  have haddressed := addressed_merged store e.context h
  rw [finish_of_addressed s haddressed]
  refine ⟨haddressed, about_mergeDuplicates (about_enrichAll habout), ?_, ?_, ?_⟩
  · apply (disjoint_mergeDuplicates e.context _).imp
    intro x y hdisjoint id hboth
    exact hdisjoint id (IdentifierSet.holds_iff.mp hboth.1) (IdentifierSet.holds_iff.mp hboth.2)
  · exact fun n hn _ => exists_keysWithin_merged store e.context hn
  · intro n hn hempty
    rw [h n hn] at hempty
    cases hempty

theorem serves_of_empty (s : Settings) (store : UserStore) {e : Event} {n : Notification}
    (habout : n.context = e.context) (h : n.recipient.isEmpty) :
    s.Serves e [n] (s.finish (merged store e.context [n])) := by
  rw [finish_of_empty s store e.context h]
  refine ⟨?_, ?_, ?_, ?_, ?_⟩
  · split
    · exact List.forall_mem_singleton.mpr (Ascending.isEmpty_insert ∅ unaddressed)
    · exact List.forall_mem_nil _
  · split
    · exact List.forall_mem_singleton.mpr habout
    · exact List.forall_mem_nil _
  · split
    · exact List.pairwise_singleton _ _
    · exact .nil
  · intro m hm hsomebody
    rw [List.mem_singleton.mp hm, h] at hsomebody
    cases hsomebody
  · intro m hm _
    rw [List.mem_singleton.mp hm]

theorem serves_finish (s : Settings) (store : UserStore) {e : Event} {made : List Notification}
    (h : e.generated = .ok made) :
    s.Serves e made (s.finish (merged store e.context made)) := by
  have habout := context_generated h
  by_cases hempty : ∃ n ∈ made, n.recipient.isEmpty
  · obtain ⟨n, hn, hempty⟩ := hempty
    obtain rfl := eq_singleton_of_generated h hn hempty
    exact serves_of_empty s store (habout n hn) hempty
  · exact serves_of_addressed s store habout fun n hn =>
      Bool.eq_false_iff.mpr fun hn' => hempty ⟨n, hn, hn'⟩

theorem processors_of_build {s : Settings} {network : Network} {d d' : Disk}
    {options : Server.Options} (h : (s.build network d).value = .ok (options, d')) :
    options.processors = s.processors := by
  unfold build at h
  rw [Logged.value_bind, Logged.value_pure] at h
  obtain ⟨⟨store, disk⟩, -, hconnected⟩ := bind_eq_ok.mp h
  obtain ⟨service, -, hoptions⟩ := map_eq_ok.mp hconnected
  cases hoptions
  rfl

/-- The chain of the program fails only where the payload of a delivery is rejected, whatever the
store knows and whether or not it can be asked. Otherwise everybody is served. -/
theorem configured_chain_serves (s : Settings) (network : Network) (d : Disk)
    {options : Server.Options} {d' : Disk} (h : (s.build network d).value = .ok (options, d'))
    (store : UserStore) (e : Event) :
    options.processors = [.messages, .forge, .enrich, .deduplicate,
        if s.blackhole then .routeUnaddressed unaddressed else .dropUnaddressed] ∧
      unaddressed.text = "blackhole:unaddressed" ∧
      (∀ failure, (runChain store options.processors e).value = .error failure ↔
        ∃ delivery, e.content = .delivery delivery ∧
          Forge.notifications e.context delivery = .error failure) ∧
      ∀ out, (runChain store options.processors e).value = .ok out →
        ∃ made, (runChain store [.messages, .forge] e).value = .ok made ∧ s.Serves e made out := by
  rw [processors_of_build h, value_runChain, value_generation]
  refine ⟨rfl, rfl, fun failure => ?_, fun out hout => ?_⟩
  · exact map_eq_error.trans generated_eq_error
  · obtain ⟨made, hmade, rfl⟩ := map_eq_ok.mp hout
    exact ⟨made, hmade, serves_finish s store hmade⟩

/-! An example: a message without a usable address, while the store cannot be asked. -/

/-- The settings with a place for what is unaddressed. -/
def sampleSettings : Settings :=
  { standard with blackhole := true }

/-- No client can be made, nor is one needed. -/
def sampleNetwork : Network :=
  ⟨⟨Slack.publicAddress, [], []⟩, some "builder error"⟩

/-- A store that cannot be asked. -/
def deafStore : UserStore :=
  ⟨.directory [], some ⟨["*"], none, none⟩⟩

/-- A message to nobody. -/
def strayEvent : Event :=
  { sampleEvent with content := .message ⟨"bob", "", "hi"⟩ }

theorem configured_chain_serves_sample :
    (sampleSettings.build sampleNetwork .blank).value =
        .ok (sampleSettings.options (.ofUsers []) sampleNetwork.service, .blank) ∧
      ∃ made out, (runChain deafStore [.messages, .forge] strayEvent).value = .ok made ∧
        (runChain deafStore (sampleSettings.options (.ofUsers []) sampleNetwork.service).processors
          strayEvent).value = .ok out ∧
        sampleSettings.Serves strayEvent made out ∧
        out.map Notification.recipient = [.singleton unaddressed] := by
  have hbuild : (sampleSettings.build sampleNetwork .blank).value =
      .ok (sampleSettings.options (.ofUsers []) sampleNetwork.service, .blank) := rfl
  obtain ⟨-, -, -, hserves⟩ :=
    configured_chain_serves sampleSettings sampleNetwork .blank hbuild deafStore strayEvent
  obtain ⟨made, hmade, hout⟩ := hserves _ rfl
  exact ⟨hbuild, made, _, hmade, rfl, hout, rfl⟩

end Settings

end Herald
