import Herald.Proofs.Preference.Provider

/-!
Who is asked for an opinion. However chains are nested, their leaves are asked from left to right, each
once, until one of them has an opinion. How leaves are put together into chains does not matter. A leaf may
change with every question, so all that is asked of it shows.
-/

namespace Herald.Provider

variable {σ : Type}

/-! ### Leaves -/

mutual

/-- The providers of a tree of chains that are no chains, from left to right. -/
def leaves : Provider → List Provider
  | .chain providers => leavesOfAll providers
  | p => [p]

@[inherit_doc leaves]
def leavesOfAll : List Provider → List Provider
  | [] => []
  | p :: rest => p.leaves ++ leavesOfAll rest

end

@[simp] theorem leavesOfAll_append (ps qs : List Provider) :
    leavesOfAll (ps ++ qs) = leavesOfAll ps ++ leavesOfAll qs := by
  induction ps with
  | nil => rfl
  | cons p rest ih => rw [List.cons_append, leavesOfAll, leavesOfAll, ih, List.append_assoc]

mutual

/-- A leaf is no chain. -/
theorem not_chain_of_mem_leaves {leaf : Provider} (p : Provider) (h : leaf ∈ p.leaves)
    (ps : List Provider) : leaf ≠ .chain ps :=
  match p with
  | .chain providers => not_chain_of_mem_leavesOfAll providers h ps
  | .map _ | .always _ | .users _ | .own | .fixed _ _ | .custom _ _ => by
    rw [List.mem_singleton.mp h]
    exact Provider.noConfusion

@[inherit_doc not_chain_of_mem_leaves]
theorem not_chain_of_mem_leavesOfAll {leaf : Provider} (providers : List Provider)
    (h : leaf ∈ leavesOfAll providers) (ps : List Provider) : leaf ≠ .chain ps :=
  match providers with
  | [] => absurd h List.not_mem_nil
  | p :: rest =>
    (List.mem_append.mp h).elim (fun hp => not_chain_of_mem_leaves p hp ps)
      fun hrest => not_chain_of_mem_leavesOfAll rest hrest ps

end

/-! ### Leaves that change -/

/-- What a leaf answers and reports, and the state that it leaves behind. -/
abbrev Reply (σ : Type) : Type :=
  Provider → σ → Logged (Option Bool) × σ

/-- An answer, and if it is no opinion, that of the next one asked. -/
def orNext (answer : Logged (Option Bool) × σ) (next : σ → Logged (Option Bool) × σ) :
    Logged (Option Bool) × σ :=
  match answer with
  | (⟨some wants, log⟩, s) => (⟨some wants, log⟩, s)
  | (⟨none, log⟩, s) => (⟨(next s).1.value, log ++ (next s).1.log⟩, (next s).2)

@[simp] theorem orNext_none (answer : Logged (Option Bool) × σ) :
    orNext answer (fun s => (.pure none, s)) = answer := by
  obtain ⟨⟨value, log⟩, s⟩ := answer
  cases value with
  | none => simp [orNext, Logged.pure]
  | some wants => rfl

theorem orNext_assoc (answer : Logged (Option Bool) × σ) (next last : σ → Logged (Option Bool) × σ) :
    orNext (orNext answer next) last = orNext answer fun s => orNext (next s) last := by
  obtain ⟨⟨value, log⟩, s⟩ := answer
  cases value with
  | some wants => rfl
  | none =>
    rcases hnext : next s with ⟨⟨value, log'⟩, s'⟩
    cases value <;> simp [orNext, hnext]

mutual

/-- The opinion of a provider among leaves that may be in another state after every question. -/
def consult (reply : Reply σ) : Provider → σ → Logged (Option Bool) × σ
  | .chain providers, s => consultAll reply providers s
  | p, s => reply p s

/-- The first opinion of several providers; those after it are not asked. -/
def consultAll (reply : Reply σ) : List Provider → σ → Logged (Option Bool) × σ
  | [], s => (.pure none, s)
  | p :: rest, s => orNext (consult reply p s) (consultAll reply rest)

end

/-- A leaf answers the same every time. -/
def steady (n : Notification) (transport : String) : Reply σ :=
  fun leaf s => (leaf.wants n transport, s)

/-- A leaf answers the same every time, and it is noted whether one of them had to wait. -/
def noting (n : Notification) (transport : String) : Reply Bool :=
  fun leaf waited => (leaf.wants n transport, waited || leaf.waits n transport)

variable {reply : Reply σ}

theorem consult_of_not_chain {leaf : Provider} (h : ∀ ps, leaf ≠ .chain ps) (s : σ) :
    consult reply leaf s = reply leaf s := by
  cases leaf with
  | chain ps => exact absurd rfl (h ps)
  | _ => rfl

mutual

/-- Where answers change nothing this is the opinion of the provider. -/
theorem consult_steady (n : Notification) (transport : String) (p : Provider) (s : σ) :
    consult (steady n transport) p s = (p.wants n transport, s) :=
  match p with
  | .chain providers => by rw [consult, wants, consultAll_steady n transport providers s]
  | .map _ | .always _ | .users _ | .own | .fixed _ _ | .custom _ _ => rfl

@[inherit_doc consult_steady]
theorem consultAll_steady (n : Notification) (transport : String) (ps : List Provider) (s : σ) :
    consultAll (steady n transport) ps s = (firstOpinion n transport ps, s) :=
  match ps with
  | [] => rfl
  | p :: rest => by
    rw [consultAll, firstOpinion, consult_steady n transport p s]
    rcases p.wants n transport with ⟨value, log⟩
    cases value with
    | some wants => simp [orNext, Logged.bind, Logged.pure]
    | none => simp [orNext, Logged.bind, consultAll_steady n transport rest s]

end

mutual

/-- What is noted of the questions is whether one of them has to wait. -/
theorem consult_noting (n : Notification) (transport : String) (p : Provider) (waited : Bool) :
    consult (noting n transport) p waited = (p.wants n transport, waited || p.waits n transport) :=
  match p with
  | .chain providers => by rw [consult, wants, waits, consultAll_noting n transport providers waited]
  | .map _ | .always _ | .users _ | .own | .fixed _ _ | .custom _ _ => rfl

@[inherit_doc consult_noting]
theorem consultAll_noting (n : Notification) (transport : String) (ps : List Provider) (waited : Bool) :
    consultAll (noting n transport) ps waited =
      (firstOpinion n transport ps, waited || anyWaits n transport ps) :=
  match ps with
  | [] => by simp [consultAll, firstOpinion, anyWaits]
  | p :: rest => by
    rw [consultAll, firstOpinion, anyWaits, consult_noting n transport p waited]
    rcases p.wants n transport with ⟨value, log⟩
    cases value with
    | some wants => simp [orNext, Logged.bind, Logged.pure]
    | none => simp [orNext, Logged.bind, consultAll_noting n transport rest, Bool.or_assoc]

end

/-! ### Only the leaves count -/

theorem consultAll_append (ps qs : List Provider) (s : σ) :
    consultAll reply (ps ++ qs) s = orNext (consultAll reply ps s) (consultAll reply qs) := by
  induction ps generalizing s with
  | nil => rfl
  | cons p rest ih =>
    rw [List.cons_append, consultAll, consultAll, orNext_assoc]
    exact congrArg _ (funext ih)

@[simp] theorem consultAll_singleton (p : Provider) (s : σ) :
    consultAll reply [p] s = consult reply p s :=
  orNext_none (consult reply p s)

mutual

/-- Asking the leaves one after another is asking the tree. -/
theorem consultAll_leaves (p : Provider) (s : σ) :
    consultAll reply p.leaves s = consult reply p s :=
  match p with
  | .chain providers => consultAll_leavesOfAll providers s
  | .map _ | .always _ | .users _ | .own | .fixed _ _ | .custom _ _ => consultAll_singleton _ s

@[inherit_doc consultAll_leaves]
theorem consultAll_leavesOfAll (ps : List Provider) (s : σ) :
    consultAll reply (leavesOfAll ps) s = consultAll reply ps s :=
  match ps with
  | [] => rfl
  | p :: rest => by
    rw [leavesOfAll, consultAll_append, consultAll_leaves p s, consultAll]
    exact congrArg _ (funext fun s => consultAll_leavesOfAll rest s)

end

theorem consult_eq_of_leaves_eq {p q : Provider} (h : q.leaves = p.leaves) (s : σ) :
    consult reply q s = consult reply p s := by
  rw [← consultAll_leaves, h, consultAll_leaves]

theorem value_firstOpinion (n : Notification) (transport : String) (ps : List Provider) :
    (firstOpinion n transport ps).value = ps.findSome? fun p => (p.wants n transport).value := by
  induction ps with
  | nil => rfl
  | cons p rest ih =>
    rw [value_firstOpinion_cons, ih, List.findSome?_cons]
    cases (p.wants n transport).value <;> rfl

theorem wants_eq_firstOpinion_leaves (n : Notification) (transport : String) (p : Provider) :
    p.wants n transport = firstOpinion n transport p.leaves := by
  have hleaves : consultAll (steady n transport) p.leaves () = consult (steady n transport) p () :=
    consultAll_leaves p ()
  rw [consult_steady, consultAll_steady] at hleaves
  exact (congrArg Prod.fst hleaves).symm

/-! ### What is asked -/

/-- A question put to a leaf, and its answer. -/
abbrev Question : Type :=
  Provider × Logged (Option Bool)

/-- Leaves are asked this, one question after another, and go from the one state to the other. -/
inductive Asks (reply : Reply σ) : σ → List Question → σ → Prop
  | done (s : σ) : Asks reply s [] s
  | ask {leaf : Provider} {answer : Logged (Option Bool)} {s s' s'' : σ} {asked : List Question}
      (hask : reply leaf s = (answer, s')) (hrest : Asks reply s' asked s'') :
      Asks reply s ((leaf, answer) :: asked) s''

/-- None of the questions was answered with an opinion. -/
def Undecided (asked : List Question) : Prop :=
  ∀ question ∈ asked, question.2.value = none

/-- How asking these leaves ends: with the first opinion, or after all of them without one. -/
inductive Decides (leaves : List Provider) : List Question → Option Bool → Prop
  | opinion (before : List Question) {leaf : Provider} {wants : Bool} {log : Log}
      (hbefore : Undecided before) :
      Decides leaves (before ++ [(leaf, ⟨some wants, log⟩)]) (some wants)
  | silence {asked : List Question} (hall : asked.map Prod.fst = leaves) (hnone : Undecided asked) :
      Decides leaves asked none

/-- These questions, put to the leaves from left to right, make up the answer of the whole. -/
structure AsksInOrder (leaves : List Provider) (asked : List Question)
    (answer : Logged (Option Bool)) : Prop where
  isPrefix : asked.map Prod.fst <+: leaves
  decides : Decides leaves asked answer.value
  log : answer.log = asked.flatMap fun question => question.2.log

theorem Undecided.cons {asked : List Question} (h : Undecided asked) (leaf : Provider) (log : Log) :
    Undecided ((leaf, ⟨none, log⟩) :: asked) :=
  List.forall_mem_cons.mpr ⟨rfl, h⟩

/-- A leaf without opinion is asked before the others. -/
theorem AsksInOrder.cons {leaves : List Provider} {asked : List Question} {answer : Logged (Option Bool)}
    (h : AsksInOrder leaves asked answer) (leaf : Provider) (log : Log) :
    AsksInOrder (leaf :: leaves) ((leaf, ⟨none, log⟩) :: asked) ⟨answer.value, log ++ answer.log⟩ where
  isPrefix := (List.prefix_cons_inj leaf).mpr h.isPrefix
  decides := by
    obtain ⟨value, log'⟩ := answer
    obtain ⟨-, hdecides, -⟩ := h
    cases hdecides with
    | opinion before hbefore => exact .opinion (_ :: before) (hbefore.cons leaf log)
    | silence hall hnone => exact .silence (congrArg _ hall) (hnone.cons leaf log)
  log := by rw [h.log, List.flatMap_cons]

theorem asksInOrder_singleton (leaf : Provider) (rest : List Provider) (wants : Bool) (log : Log) :
    AsksInOrder (leaf :: rest) [(leaf, ⟨some wants, log⟩)] ⟨some wants, log⟩ where
  isPrefix := List.prefix_append [leaf] rest
  decides := .opinion [] fun _ h => absurd h List.not_mem_nil
  log := by simp

theorem consultAll_asks (leaves : List Provider) (hleaves : ∀ leaf ∈ leaves, ∀ ps, leaf ≠ .chain ps)
    (s : σ) : ∃ asked, Asks reply s asked (consultAll reply leaves s).2 ∧
      AsksInOrder leaves asked (consultAll reply leaves s).1 := by
  induction leaves generalizing s with
  | nil =>
    exact ⟨[], .done s, List.prefix_rfl, .silence rfl fun _ h => absurd h List.not_mem_nil, rfl⟩
  | cons leaf rest ih =>
    obtain ⟨hleaf, hrest⟩ := List.forall_mem_cons.mp hleaves
    rw [consultAll, consult_of_not_chain hleaf]
    rcases hreply : reply leaf s with ⟨⟨value, log⟩, s'⟩
    cases value with
    | some wants => exact ⟨_, .ask hreply (.done s'), asksInOrder_singleton leaf rest wants log⟩
    | none =>
      obtain ⟨asked, hasks, hinOrder⟩ := ih hrest s'
      exact ⟨_, .ask hreply hasks, hinOrder.cons leaf log⟩

theorem consult_asks (p : Provider) (s : σ) :
    ∃ asked, Asks reply s asked (consult reply p s).2 ∧
      AsksInOrder p.leaves asked (consult reply p s).1 := by
  rw [← consultAll_leaves]
  exact consultAll_asks p.leaves (fun _ => not_chain_of_mem_leaves p) s

/-- Whether somebody had to wait shows from the questions. -/
theorem Asks.waits {n : Notification} {transport : String} {waited waited' : Bool}
    {asked : List Question} (h : Asks (noting n transport) waited asked waited') :
    (∀ question ∈ asked, question.2 = question.1.wants n transport) ∧
      waited' = (waited || asked.any fun question => question.1.waits n transport) := by
  induction h with
  | done => simp
  | ask hask _ ih =>
    obtain ⟨rfl, rfl⟩ := Prod.mk.inj hask
    exact ⟨List.forall_mem_cons.mpr ⟨rfl, ih.1⟩, by rw [ih.2, List.any_cons, Bool.or_assoc]⟩

/-! ### Flattening -/

/-- The second comes from the first by opening chains within chains. Opening an empty chain removes it. -/
inductive Flattens : Provider → Provider → Prop
  | refl (p : Provider) : Flattens p p
  | opened (before inner after : List Provider) :
      Flattens (.chain (before ++ .chain inner :: after)) (.chain (before ++ inner ++ after))
  | within (before after : List Provider) {p q : Provider} (h : Flattens p q) :
      Flattens (.chain (before ++ p :: after)) (.chain (before ++ q :: after))
  | trans {p q r : Provider} (h : Flattens p q) (h' : Flattens q r) : Flattens p r

theorem Flattens.leaves_eq {p q : Provider} (h : Flattens p q) : q.leaves = p.leaves := by
  induction h with
  | refl => rfl
  | opened before inner after => simp [leaves, leavesOfAll]
  | within before after _ ih => simp [leaves, leavesOfAll, ih]
  | trans _ _ ih ih' => exact ih'.trans ih

mutual

/-- Chains can be opened until only leaves are left. -/
theorem flattens_leaves (before after : List Provider) (p : Provider) :
    Flattens (.chain (before ++ p :: after)) (.chain (before ++ p.leaves ++ after)) :=
  match p with
  | .chain providers =>
    (Flattens.opened before providers after).trans (flattens_leavesOfAll before after providers)
  | .map _ | .always _ | .users _ | .own | .fixed _ _ | .custom _ _ => by
    simpa [leaves] using Flattens.refl _

@[inherit_doc flattens_leaves]
theorem flattens_leavesOfAll (before after ps : List Provider) :
    Flattens (.chain (before ++ ps ++ after)) (.chain (before ++ leavesOfAll ps ++ after)) :=
  match ps with
  | [] => .refl _
  | p :: rest => by
    have hfirst := flattens_leaves before (rest ++ after) p
    have hrest := flattens_leavesOfAll (before ++ p.leaves) after rest
    simp only [List.append_assoc, List.cons_append, leavesOfAll] at hfirst hrest ⊢
    exact hfirst.trans hrest

end

/-! ### The whole tree -/

/-- What becomes of a question to a tree of chains, and what does not depend on how it is nested. -/
structure AsksLeaves (p : Provider) : Prop where
  no_chains : ∀ leaf ∈ p.leaves, ∀ ps, leaf ≠ .chain ps
  /-- The first opinion among the leaves counts. -/
  first : ∀ n transport, (p.wants n transport).value =
    p.leaves.findSome? fun leaf => (leaf.wants n transport).value
  /-- Whatever the leaves do, they are asked until one has an opinion, and no further. -/
  inOrder : ∀ (σ : Type) (reply : Reply σ) (s : σ), ∃ asked,
    Asks reply s asked (consult reply p s).2 ∧ AsksInOrder p.leaves asked (consult reply p s).1
  /-- Where answers change nothing that is how an opinion is formed. -/
  steadily : ∀ n transport (σ : Type) (s : σ),
    consult (steady n transport) p s = (p.wants n transport, s)
  /-- Reports come from those who were asked, and nobody waits for others. -/
  heard : ∀ n transport, ∃ asked, (∀ question ∈ asked, question.2 = question.1.wants n transport) ∧
    AsksInOrder p.leaves asked (p.wants n transport) ∧
    p.waits n transport = asked.any fun question => question.1.waits n transport
  /-- Chains within chains can be opened: nobody else is asked then, and the answer is the same. -/
  flattened : ∀ q, Flattens p q →
    (∀ (σ : Type) (reply : Reply σ) (s : σ), consult reply q s = consult reply p s) ∧
    ∀ n transport, q.wants n transport = p.wants n transport ∧
      q.waits n transport = p.waits n transport
  flat : ∀ ps, p = .chain ps → Flattens p (.chain p.leaves)

theorem heard_of_consult (p : Provider) (n : Notification) (transport : String) :
    ∃ asked, (∀ question ∈ asked, question.2 = question.1.wants n transport) ∧
      AsksInOrder p.leaves asked (p.wants n transport) ∧
      p.waits n transport = asked.any fun question => question.1.waits n transport := by
  obtain ⟨asked, hasks, hinOrder⟩ : ∃ asked, Asks (noting n transport) false asked _ ∧ _ :=
    consult_asks p false
  rw [consult_noting] at hasks hinOrder
  obtain ⟨hanswers, hwaits⟩ := hasks.waits
  exact ⟨asked, hanswers, hinOrder, by simpa using hwaits⟩

/-- A flattened tree forms the same opinion, and has to wait for it where the tree had to. -/
theorem Flattens.same {p q : Provider} (h : Flattens p q) (n : Notification) (transport : String) :
    q.wants n transport = p.wants n transport ∧ q.waits n transport = p.waits n transport := by
  have hconsult : consult (noting n transport) q false = consult (noting n transport) p false :=
    consult_eq_of_leaves_eq h.leaves_eq false
  rw [consult_noting, consult_noting] at hconsult
  simpa using hconsult

/-- Of all providers in a tree of chains the first leaf with an opinion decides. The leaves up to this one
are asked, each once and from left to right, and no others, however the tree is nested. -/
theorem chain_asks_leaves_until_decided (p : Provider) : AsksLeaves p where
  no_chains _ := not_chain_of_mem_leaves p
  first n transport := by rw [wants_eq_firstOpinion_leaves, value_firstOpinion]
  inOrder _ _ s := consult_asks p s
  steadily n transport _ s := consult_steady n transport p s
  heard n transport := heard_of_consult p n transport
  flattened _ h := ⟨fun _ _ s => consult_eq_of_leaves_eq h.leaves_eq s, h.same⟩
  flat ps h := by
    subst h
    simpa [leaves] using flattens_leavesOfAll [] [] ps

/-- Three leaves below two nested chains and an empty one, of which two are asked. -/
theorem chain_asks_leaves_until_decided_sample :
    let tree := Provider.chain [.chain [], .chain [.fixed none none, .always false], .always true]
    let flat := Provider.chain [.fixed none none, .always false, .always true]
    let counted : Reply Nat := fun leaf count =>
      match leaf with
      | .always wants => (.pure (some wants), count + 1)
      | _ => (.pure none, count + 1)
    Flattens tree flat ∧ consult counted flat 0 = consult counted tree 0 ∧
      consult counted tree 0 = (.pure (some false), 2) := by
  intro tree flat counted
  have hempty : Flattens tree (.chain [.chain [.fixed none none, .always false], .always true]) :=
    .opened [] [] _
  have hinner : Flattens (.chain [.chain [.fixed none none, .always false], .always true]) flat :=
    .opened [] [.fixed none none, .always false] [.always true]
  have hflattens := hempty.trans hinner
  exact ⟨hflattens, ((chain_asks_leaves_until_decided tree).flattened flat hflattens).1 Nat counted 0, rfl⟩

end Herald.Provider
