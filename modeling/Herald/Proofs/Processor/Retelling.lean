import Herald.Proofs.Processor.Origin
import Herald.Proofs.User.Rewriting

/-!
An event told again. If it has the same content under another context, and some people have come to
prefer something else, the built-in processors make the same notifications of it, under that context.
-/

namespace Herald.Processor

variable {may : String → Prop} {store store' : UserStore} {e e' : Event} {c c' : Context}
  {ns : List Notification}

@[simp] theorem recipients_under (c : Context) (ns : List Notification) :
    (ns.map (Notification.under c)).map Notification.recipient =
      ns.map Notification.recipient := by
  rw [List.map_map]
  rfl

/-! ### Single processors -/

/-- A recipient is completed alike, as preferences are not looked at. -/
theorem enrichOne_under (hstore : store.Rewritten may store')
    (hreads : ∀ candidates, store.Reads candidates) (c c' : Context) (n : Notification) :
    (enrichOne store' c' (n.under c')).value = ((enrichOne store c n).value).under c' := by
  have hfind := hstore.alike_find (hreads n.recipient)
  unfold enrichOne
  rw [Notification.recipient_under]
  split
  · rfl
  · rw [Logged.value_bind, Logged.value_bind]
    generalize (store.find n.recipient).value = x at hfind ⊢
    generalize (store'.find n.recipient).value = x' at hfind ⊢
    cases hfind with
    | ok h =>
      dsimp only
      rw [h.identifiers]
      rfl
    | error failure =>
      dsimp only
      split <;> rfl

theorem enrichAll_under (hstore : store.Rewritten may store')
    (hreads : ∀ candidates, store.Reads candidates) (c c' : Context) (ns : List Notification) :
    (enrichAll store' c' (ns.map (Notification.under c'))).value =
      (enrichAll store c ns).value.map (Notification.under c') := by
  rw [value_enrichAll, value_enrichAll, List.map_map, List.map_map]
  exact List.map_congr_left fun n _ => enrichOne_under hstore hreads c c' n

theorem collapse_under (c : Context) (ns : List Notification) (members : List Nat) :
    collapse (ns.map (Notification.under c)) members =
      (collapse ns members).map (Notification.under c) := by
  unfold collapse
  rw [recipients_under]
  cases members.head? with
  | none => rfl
  | some i =>
    rw [Option.bind_some, Option.bind_some, List.getElem?_map]
    cases ns[i]? <;> rfl

theorem mergeDuplicates_under (c c' : Context) (ns : List Notification) :
    (mergeDuplicates c' (ns.map (Notification.under c'))).value =
      (mergeDuplicates c ns).value.map (Notification.under c') := by
  rw [value_mergeDuplicates, value_mergeDuplicates, groups, recipients_under, List.map_filterMap]
  exact List.filterMap_congr fun members _ => collapse_under c' ns members

theorem keepAddressed_under (c c' : Context) (ns : List Notification) :
    (keepAddressed c' (ns.map (Notification.under c'))).value =
      (keepAddressed c ns).value.map (Notification.under c') := by
  rw [value_keepAddressed, value_keepAddressed, List.filter_map]
  rfl

theorem route_under (sink : Identifier) (c : Context) (n : Notification) :
    route sink (n.under c) = (route sink n).under c := by
  unfold route
  rw [Notification.recipient_under]
  split <;> rfl

/-! ### Chains -/

/-- A step makes of the same notifications the same again. -/
theorem process_under {p : Processor} (hp : p.isBuiltIn) (hstore : store.Rewritten may store')
    (hreads : ∀ candidates, store.Reads candidates) (he : e.content = e'.content)
    (ns : List Notification) :
    (p.process store' e' (ns.map (Notification.under e'.context))).value =
      (p.process store e ns).value.map (List.map (Notification.under e'.context)) := by
  cases p with
  | messages =>
    simp only [process, generateMessage, he]
    cases e'.content with
    | message m =>
      simp only [Logged.value_bind, Logged.value_pure, Except.map, List.map_append, List.map_cons,
        List.map_nil, ofMessage_under e.context e'.context m]
    | delivery d => rfl
  | forge =>
    simp only [process, generateForge, he]
    cases e'.content with
    | message m => rfl
    | delivery d =>
      dsimp only
      rw [Forge.notifications_under e.context e'.context d]
      cases Forge.notifications e.context d with
      | error failure => rfl
      | ok made =>
        simp only [Except.map, Logged.value_bind, Logged.value_pure, List.map_append]
  | enrich =>
    exact congrArg Except.ok (enrichAll_under hstore hreads e.context e'.context ns)
  | deduplicate =>
    exact congrArg Except.ok (mergeDuplicates_under e.context e'.context ns)
  | dropUnaddressed =>
    exact congrArg Except.ok (keepAddressed_under e.context e'.context ns)
  | routeUnaddressed sink =>
    simp only [process, Logged.value_pure, Except.map, List.map_map]
    exact congrArg Except.ok (List.map_congr_left fun n _ => route_under sink e'.context n)
  | custom name work check => cases hp

theorem runOn_under {processors : List Processor} (hp : ∀ p ∈ processors, p.isBuiltIn)
    (hstore : store.Rewritten may store') (hreads : ∀ candidates, store.Reads candidates)
    (he : e.content = e'.content) (ns : List Notification) :
    (runOn store' e' processors (ns.map (Notification.under e'.context))).value =
      (runOn store e processors ns).value.map (List.map (Notification.under e'.context)) := by
  induction processors generalizing ns with
  | nil => rfl
  | cons p rest ih =>
    obtain ⟨hp, hrest⟩ := List.forall_mem_cons.mp hp
    have hstep := process_under hp hstore hreads he ns
    cases hfirst : (p.process store e ns).value with
    | error failure =>
      rw [hfirst] at hstep
      rw [runOn_cons_of_error hfirst, runOn_cons_of_error hstep]
      rfl
    | ok between =>
      rw [hfirst] at hstep
      rw [runOn_cons_of_ok hfirst, runOn_cons_of_ok hstep]
      exact ih hrest between

end Herald.Processor
