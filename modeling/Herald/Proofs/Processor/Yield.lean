import Herald.Proofs.Processor.Chain
import Herald.Proofs.Processor.Recipients

/-!
Whether anything comes of an event. The built-in processors may notify other people where other people
are known, but whether they fail, and whether there is anything to send in the end, is up to the content
of the event.
-/

namespace Herald

/-- The same notification about something else. -/
def Notification.under (c : Context) (n : Notification) : Notification :=
  { n with context := c }

@[simp] theorem Notification.recipient_under (c : Context) (n : Notification) :
    (n.under c).recipient = n.recipient := rfl

namespace Forge

/-- The recipients for which there are notifications. -/
def recipients (made : Except ProcessError (List Notification)) :
    Except ProcessError (List IdentifierSet) :=
  made.map (List.map Notification.recipient)

variable (c c' : Context)

theorem review_under (p : Payload.PullRequest) :
    reviewNotifications c' p = (reviewNotifications c p).map (List.map (Notification.under c')) := by
  unfold reviewNotifications
  split
  · rename_i reviewer _
    split
    · cases person githubSpace reviewer <;> rfl
    · rfl
  · rfl

theorem comment_under (p : Payload.IssueComment) :
    commentNotifications c' p = (commentNotifications c p).map (List.map (Notification.under c')) := by
  unfold commentNotifications
  split
  · cases person githubSpace p.author <;> rfl
  · rfl

theorem push_under (p : Payload.Push) :
    pushNotifications c' p = (pushNotifications c p).map (List.map (Notification.under c')) := by
  unfold pushNotifications
  cases pusher p <;> rfl

theorem mapM_map {α β γ : Type} (f : α → Except ProcessError β) (g : β → γ) (xs : List α) :
    (xs.mapM fun a => (f a).map g) = (xs.mapM f).map (List.map g) := by
  induction xs with
  | nil => rfl
  | cons a rest ih =>
    rw [List.mapM_cons, List.mapM_cons, ih]
    cases f a with
    | error failure => rfl
    | ok b => cases rest.mapM f <;> rfl

theorem merge_under (p : Payload.MergeRequest) :
    mergeNotifications c' p = (mergeNotifications c p).map (List.map (Notification.under c')) := by
  unfold mergeNotifications
  rw [← mapM_map]
  congr 1
  funext assignee
  cases person gitlabSpace assignee <;> rfl

/-- What a delivery calls for is up to its content, but for the context. -/
theorem notifications_under (d : Delivery) :
    notifications c' d = (notifications c d).map (List.map (Notification.under c')) := by
  unfold notifications
  split
  · cases decode d Payload.PullRequest.ofJson? with
    | error failure => rfl
    | ok p => exact review_under c c' p
  · cases decode d Payload.IssueComment.ofJson? with
    | error failure => rfl
    | ok p => exact comment_under c c' p
  · cases decode d Payload.Push.ofJson? with
    | error failure => rfl
    | ok p => exact push_under c c' p
  · cases decode d Payload.MergeRequest.ofJson? with
    | error failure => rfl
    | ok p => exact merge_under c c' p
  · rfl

theorem recipients_notifications (d : Delivery) :
    recipients (notifications c d) = recipients (notifications c' d) := by
  rw [notifications_under c c' d]
  cases notifications c d with
  | error failure => rfl
  | ok ns => simp [recipients, Except.map]

end Forge

namespace Processor

/-- True for the processors that are not from elsewhere. -/
def isBuiltIn : Processor → Bool
  | .custom _ _ _ => false
  | _ => true

/-! ### Lists that are alike -/

/-- For each notification, whether it is for nobody. -/
def blanks (ns : List Notification) : List Bool :=
  ns.map fun n => n.recipient.isEmpty

/-- In both lists there are notifications for somebody or in none, and the same is true of those for
nobody. -/
def Alike (ns ns' : List Notification) : Prop :=
  ∀ blank, blank ∈ blanks ns ↔ blank ∈ blanks ns'

variable {ns ns' more more' : List Notification}

theorem Alike.nil_iff (h : Alike ns ns') : ns = [] ↔ ns' = [] := by
  have hnil : ∀ {ns : List Notification}, ns = [] ↔ ∀ blank, blank ∉ blanks ns := by
    intro ns
    rw [← List.eq_nil_iff_forall_not_mem, blanks, List.map_eq_nil_iff]
  rw [hnil, hnil]
  exact forall_congr' fun blank => not_congr (h blank)

theorem Alike.refl (ns : List Notification) : Alike ns ns :=
  fun _ => Iff.rfl

theorem Alike.append (h : Alike ns ns') (h' : Alike more more') :
    Alike (ns ++ more) (ns' ++ more') := by
  intro blank
  simp only [blanks, List.map_append, List.mem_append] at *
  exact or_congr (h blank) (h' blank)

theorem alike_of_recipients (h : ns.map Notification.recipient = ns'.map Notification.recipient) :
    Alike ns ns' := by
  have hblanks := congrArg (List.map fun s : IdentifierSet => s.isEmpty) h
  rw [List.map_map, List.map_map] at hblanks
  exact fun blank => iff_of_eq (congrArg (blank ∈ ·) hblanks)

/-- Both results are the same failure, or lists that are alike. -/
inductive Similar : (result result' : Except ProcessError (List Notification)) → Prop
  | error (failure : ProcessError) : Similar (.error failure) (.error failure)
  | ok {ns ns' : List Notification} (h : Alike ns ns') : Similar (.ok ns) (.ok ns')

theorem similar_of_recipients {made made' : Except ProcessError (List Notification)}
    (h : Forge.recipients made = Forge.recipients made') : Similar made made' := by
  cases made with
  | error failure =>
    cases made' with
    | error failure' =>
      cases h
      exact .error failure
    | ok ns' => cases h
  | ok ns =>
    cases made' with
    | error failure' => cases h
    | ok ns' => exact .ok (alike_of_recipients (Except.ok.inj h))

/-! ### What single processors yield -/

theorem ofMessage_under (c c' : Context) (m : Message) :
    (ofMessage c' m).value = (ofMessage c m).value.under c' := by
  unfold ofMessage
  cases m.recipient <;> rfl

theorem recipient_ofMessage (c c' : Context) (m : Message) :
    (ofMessage c m).value.recipient = (ofMessage c' m).value.recipient := by
  rw [ofMessage_under c c', Notification.recipient_under]

theorem Completes.isEmpty_eq {store : UserStore} {n n' : Notification} (h : Completes store n n') :
    n'.recipient.isEmpty = n.recipient.isEmpty := by
  cases hempty : n.recipient.isEmpty with
  | true => rw [h.unknown (find_empty store hempty), hempty]
  | false => exact h.keysWithin.isEmpty_eq_false hempty

theorem blanks_enrichAll (store : UserStore) (context : Context) (ns : List Notification) :
    blanks (enrichAll store context ns).value = blanks ns := by
  rw [value_enrichAll, blanks, List.map_map]
  exact List.map_congr_left fun n _ => (completes_enrichOne store context n).isEmpty_eq

/-- Whoever is linked to nobody stays alone. -/
theorem eq_of_linked_of_isEmpty {ns : List Notification} {i j : Nat} {n : Notification}
    (hn : ns[i]? = some n) (hempty : n.recipient.isEmpty)
    (h : IdentifierSet.Linked (ns.map Notification.recipient) i j) : j = i := by
  cases h.cases_head with
  | inl heq => exact heq.symm
  | inr hshares =>
    obtain ⟨k, ⟨id, ⟨s, hs, hid⟩, -⟩, -⟩ := hshares
    rw [List.getElem?_map, hn, Option.map_some, Option.some.injEq] at hs
    rw [← hs, List.isEmpty_iff.mp hempty] at hid
    cases hid

/-- A group is for nobody exactly if its members are. -/
theorem StandsFor.isEmpty_eq {ns : List Notification} {g : List Nat} {x : Notification}
    (h : StandsFor ns g x) (hg : g ∈ groups ns) {i : Nat} (hi : i ∈ g) {n : Notification}
    (hn : ns[i]? = some n) : x.recipient.isEmpty = n.recipient.isEmpty := by
  cases hempty : n.recipient.isEmpty with
  | false => exact (h.keysWithin i hi n hn).isEmpty_eq_false hempty
  | true =>
    refine List.isEmpty_iff.mpr (List.eq_nil_iff_forall_not_mem.mpr fun id hid => ?_)
    obtain ⟨j, hj, m, hm, hmem⟩ := h.held id hid
    have hlinked := ((isGrouping_groups ns).linked_iff g hg i hi j
      ((isGrouping_groups ns).lt_length hg hj)).mp hj
    obtain rfl := eq_of_linked_of_isEmpty hn hempty hlinked
    obtain rfl := Option.some.inj (hn.symm.trans hm)
    rw [List.isEmpty_iff.mp hempty] at hmem
    cases hmem

theorem mem_blanks_mergeDuplicates (context : Context) (ns : List Notification) (blank : Bool) :
    blank ∈ blanks (mergeDuplicates context ns).value ↔ blank ∈ blanks ns := by
  simp only [blanks, List.mem_map]
  constructor
  · rintro ⟨x, hx, rfl⟩
    obtain ⟨g, hg, hstands⟩ := exists_standsFor hx
    obtain ⟨i, n, hhead, hn, -⟩ := hstands.first
    exact ⟨n, List.mem_of_getElem? hn,
      (hstands.isEmpty_eq hg (List.mem_of_head? hhead) hn).symm⟩
  · rintro ⟨n, hmem, rfl⟩
    obtain ⟨i, hi⟩ := List.mem_iff_getElem?.mp hmem
    obtain ⟨x, hx, g, hg, hig, hstands⟩ := exists_standsFor_of_getElem? context hi
    exact ⟨x, hx, hstands.isEmpty_eq hg hig hi⟩

@[simp] theorem value_keepAddressed (context : Context) (ns : List Notification) :
    (keepAddressed context ns).value = ns.filter fun n => !n.recipient.isEmpty := by
  unfold keepAddressed
  dsimp only
  split <;> rfl

theorem mem_blanks_keepAddressed (context : Context) (ns : List Notification) (blank : Bool) :
    blank ∈ blanks (keepAddressed context ns).value ↔ blank = false ∧ blank ∈ blanks ns := by
  rw [value_keepAddressed]
  simp only [blanks, List.mem_map, List.mem_filter]
  cases blank <;> simp

theorem mem_blanks_route (sink : Identifier) (ns : List Notification) (blank : Bool) :
    blank ∈ blanks (ns.map (route sink)) ↔ blank = false ∧ ns ≠ [] := by
  have haddressed : ∀ n, (route sink n).recipient.isEmpty = false := by
    intro n
    unfold route
    split
    · rfl
    · rename_i hsomebody
      exact Bool.eq_false_iff.mpr hsomebody
  simp only [blanks, List.mem_map, exists_exists_and_eq_and, haddressed]
  cases ns <;> simp [eq_comm]

/-! ### Chains -/

variable (store store' : UserStore) {e e' : Event}

/-- A step keeps results similar, whoever is known. -/
theorem similar_process {p : Processor} (hp : p.isBuiltIn) (he : e.content = e'.content)
    (h : Alike ns ns') :
    Similar (p.process store e ns).value (p.process store' e' ns').value := by
  cases p with
  | messages =>
    simp only [process, generateMessage, he]
    cases e'.content with
    | message m =>
      exact .ok (h.append (alike_of_recipients (congrArg ([·]) (recipient_ofMessage _ _ m))))
    | delivery d => exact .ok h
  | forge =>
    simp only [process, generateForge, he]
    cases e'.content with
    | message m => exact .ok h
    | delivery d =>
      have hmade := similar_of_recipients (Forge.recipients_notifications e.context e'.context d)
      dsimp only
      generalize Forge.notifications e.context d = made at hmade ⊢
      generalize Forge.notifications e'.context d = made' at hmade ⊢
      cases hmade with
      | error failure => exact .error failure
      | ok hmade => exact .ok (h.append hmade)
  | enrich =>
    refine .ok fun blank => ?_
    rw [blanks_enrichAll, blanks_enrichAll]
    exact h blank
  | deduplicate =>
    refine .ok fun blank => ?_
    rw [mem_blanks_mergeDuplicates, mem_blanks_mergeDuplicates]
    exact h blank
  | dropUnaddressed =>
    refine .ok fun blank => ?_
    rw [mem_blanks_keepAddressed, mem_blanks_keepAddressed]
    exact and_congr_right fun _ => h blank
  | routeUnaddressed sink =>
    refine .ok fun blank => ?_
    rw [mem_blanks_route, mem_blanks_route, ne_eq, ne_eq, h.nil_iff]
  | custom name work check => cases hp

/-- Chains of built-in processors yield similar results for events with the same content. -/
theorem similar_runOn {processors : List Processor} (hp : ∀ p ∈ processors, p.isBuiltIn)
    (he : e.content = e'.content) (h : Alike ns ns') :
    Similar (runOn store e processors ns).value (runOn store' e' processors ns').value := by
  induction processors generalizing ns ns' with
  | nil => exact .ok h
  | cons p rest ih =>
    have hstep := similar_process store store' (hp p List.mem_cons_self) he h
    cases hfirst : (p.process store e ns).value with
    | error failure =>
      rw [hfirst] at hstep
      generalize hfirst' : (p.process store' e' ns').value = result at hstep
      cases hstep
      rw [runOn_cons_of_error hfirst, runOn_cons_of_error hfirst']
      exact .error failure
    | ok between =>
      rw [hfirst] at hstep
      generalize hfirst' : (p.process store' e' ns').value = result at hstep
      cases hstep with
      | ok hbetween =>
        rw [runOn_cons_of_ok hfirst, runOn_cons_of_ok hfirst']
        exact ih (fun p hp' => hp p (List.mem_cons_of_mem _ hp')) hbetween

end Processor

end Herald
