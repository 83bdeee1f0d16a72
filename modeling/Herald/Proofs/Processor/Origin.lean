import Herald.Proofs.Processor.Yield
import Herald.Proofs.Result

/-!
Where notifications come from. Whatever the built-in processors make of an event is about this event; and
what happened on a forge is always for somebody.
-/

namespace Herald

open Result

namespace Forge

variable {c : Context}

/-- The notification is about what has this context, and for somebody. -/
structure Addresses (c : Context) (n : Notification) : Prop where
  context : n.context = c
  somebody : n.recipient.isEmpty = false

theorem isEmpty_person {space login : String} {recipient : IdentifierSet}
    (h : person space login = .ok recipient) : recipient.isEmpty = false := by
  obtain ⟨id, -, rfl⟩ := map_eq_ok.mp h
  exact Ascending.isEmpty_insert ∅ id

theorem isEmpty_pusher {p : Payload.Push} {recipient : IdentifierSet}
    (h : pusher p = .ok recipient) : recipient.isEmpty = false := by
  unfold pusher at h
  obtain ⟨user, huser, h⟩ := bind_eq_ok.mp h
  split at h
  · split at h
    · cases h
      exact isEmpty_person huser
    · obtain ⟨address, -, h⟩ := bind_eq_ok.mp h
      cases h
      exact Ascending.isEmpty_insert user address
  · cases h
    exact isEmpty_person huser

variable {made : List Notification}

theorem addresses_review {p : Payload.PullRequest} (h : reviewNotifications c p = .ok made) :
    ∀ n ∈ made, Addresses c n := by
  unfold reviewNotifications at h
  split at h
  · split at h
    · obtain ⟨recipient, hrecipient, h⟩ := bind_eq_ok.mp h
      cases h
      exact List.forall_mem_singleton.mpr ⟨rfl, isEmpty_person hrecipient⟩
    · cases h
      exact List.forall_mem_nil _
  · cases h
    exact List.forall_mem_nil _

theorem addresses_comment {p : Payload.IssueComment} (h : commentNotifications c p = .ok made) :
    ∀ n ∈ made, Addresses c n := by
  unfold commentNotifications at h
  split at h
  · obtain ⟨recipient, hrecipient, h⟩ := bind_eq_ok.mp h
    cases h
    exact List.forall_mem_singleton.mpr ⟨rfl, isEmpty_person hrecipient⟩
  · cases h
    exact List.forall_mem_nil _

theorem addresses_push {p : Payload.Push} (h : pushNotifications c p = .ok made) :
    ∀ n ∈ made, Addresses c n := by
  unfold pushNotifications at h
  obtain ⟨recipient, hrecipient, h⟩ := bind_eq_ok.mp h
  cases h
  exact List.forall_mem_singleton.mpr ⟨rfl, isEmpty_pusher hrecipient⟩

theorem addresses_merge {p : Payload.MergeRequest} (h : mergeNotifications c p = .ok made) :
    ∀ n ∈ made, Addresses c n := by
  intro n hn
  obtain ⟨assignee, -, hassignee⟩ := mem_of_mapM_eq_ok h n hn
  obtain ⟨recipient, hrecipient, hn⟩ := bind_eq_ok.mp hassignee
  cases hn
  exact ⟨rfl, isEmpty_person hrecipient⟩

/-- A delivery never concerns nobody in particular. -/
theorem addresses_notifications {d : Delivery} (h : notifications c d = .ok made) :
    ∀ n ∈ made, Addresses c n := by
  unfold notifications at h
  split at h
  · obtain ⟨p, -, h⟩ := bind_eq_ok.mp h
    exact addresses_review h
  · obtain ⟨p, -, h⟩ := bind_eq_ok.mp h
    exact addresses_comment h
  · obtain ⟨p, -, h⟩ := bind_eq_ok.mp h
    exact addresses_push h
  · obtain ⟨p, -, h⟩ := bind_eq_ok.mp h
    exact addresses_merge h
  · cases h
    exact List.forall_mem_nil _

end Forge

namespace Processor

variable {store : UserStore} {e : Event} {before after : List Notification}

/-- All of the notifications are about the event. -/
def About (e : Event) (ns : List Notification) : Prop :=
  ∀ n ∈ ns, n.context = e.context

@[simp] theorem context_ofMessage (c : Context) (m : Message) : (ofMessage c m).value.context = c := by
  unfold ofMessage
  cases m.recipient <;> rfl

theorem StandsFor.exists_context {ns : List Notification} {g : List Nat} {x : Notification}
    (h : StandsFor ns g x) : ∃ n ∈ ns, x.context = n.context := by
  obtain ⟨i, n, -, hn, hx⟩ := h.first
  refine ⟨n, List.mem_of_getElem? hn, ?_⟩
  rw [hx]
  rfl

@[simp] theorem context_route (sink : Identifier) (n : Notification) :
    (route sink n).context = n.context := by
  unfold route
  split <;> rfl

theorem About.append {ns more : List Notification} (h : About e ns) (hmore : About e more) :
    About e (ns ++ more) :=
  List.forall_mem_append.mpr ⟨h, hmore⟩

theorem about_generateMessage (hbefore : About e before)
    (h : (generateMessage e before).value = .ok after) : About e after := by
  unfold generateMessage at h
  split at h
  · cases h
    exact hbefore.append (List.forall_mem_singleton.mpr (context_ofMessage e.context _))
  · cases h
    exact hbefore

theorem about_generateForge (hbefore : About e before)
    (h : (generateForge e before).value = .ok after) : About e after := by
  unfold generateForge at h
  split at h
  · cases h
    exact hbefore
  · split at h
    · cases h
    · rename_i made hmade
      cases h
      exact hbefore.append fun n hn => (Forge.addresses_notifications hmade n hn).context

theorem about_enrichAll (h : About e before) : About e (enrichAll store e.context before).value := by
  intro n hn
  rw [value_enrichAll] at hn
  obtain ⟨m, hm, rfl⟩ := List.mem_map.mp hn
  rw [(completes_enrichOne store e.context m).context_eq]
  exact h m hm

theorem about_mergeDuplicates (h : About e before) :
    About e (mergeDuplicates e.context before).value := by
  intro x hx
  obtain ⟨g, -, hstands⟩ := exists_standsFor hx
  obtain ⟨n, hn, heq⟩ := hstands.exists_context
  rw [heq]
  exact h n hn

/-- A step leaves notifications about the event. -/
theorem about_process {p : Processor} (hp : p.isBuiltIn) (hbefore : About e before)
    (h : (p.process store e before).value = .ok after) : About e after := by
  cases p with
  | messages => exact about_generateMessage hbefore h
  | forge => exact about_generateForge hbefore h
  | enrich =>
    cases h
    exact about_enrichAll hbefore
  | deduplicate =>
    cases h
    exact about_mergeDuplicates hbefore
  | dropUnaddressed =>
    cases h
    rw [value_keepAddressed]
    exact fun n hn => hbefore n (List.mem_of_mem_filter hn)
  | routeUnaddressed sink =>
    cases h
    refine List.forall_mem_map.mpr fun n hn => ?_
    rw [context_route]
    exact hbefore n hn
  | custom name work check => cases hp

theorem about_ran {processors : List Processor} (hp : ∀ p ∈ processors, p.isBuiltIn)
    (hran : Ran store e processors before after) (hbefore : About e before) : About e after := by
  induction hran with
  | nil ns => exact hbefore
  | cons first more ih =>
    obtain ⟨hp, hrest⟩ := List.forall_mem_cons.mp hp
    exact ih hrest (about_process hp hbefore first)

/-- What a chain of built-in processors makes of an event is about the event. -/
theorem about_runChain {processors : List Processor} (hp : ∀ p ∈ processors, p.isBuiltIn)
    (h : (runChain store processors e).value = .ok after) : About e after :=
  about_ran hp (ran_of_value h) (List.forall_mem_nil _)

end Processor

end Herald
