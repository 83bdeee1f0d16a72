import Herald.Proofs.Ascending
import Herald.Proofs.Identifier.Set
import Herald.User.Store

/-!
How a search goes. Candidates are looked up in key order, each once, until one of them names a user. If
none does, a failure counts before an ambiguity, and an ambiguity before finding nobody. A store may
change with every look-up, so all that is asked of it shows.
-/

namespace Herald.UserStore

variable {σ : Type}

/-! ### Stores that change -/

/-- The search of `firstResolved` in a store that may be in another state after every look-up. -/
def searchFrom (lookup : Identifier → σ → Except UserError User × σ) (sought : String) :
    (failed ambiguous : Option UserError) → List Identifier → σ →
      Logged (Except UserError User) × σ
  | failed, ambiguous, [], s => (.pure (.error ((failed <|> ambiguous).getD (.notFound sought))), s)
  | failed, ambiguous, id :: rest, s =>
    match lookup id s with
    | (.ok user, s) => (.pure (.ok user), s)
    | (.error (.notFound _), s) => searchFrom lookup sought failed ambiguous rest s
    | (.error (.ambiguous text n), s) =>
      searchFrom lookup sought failed (ambiguous <|> some (.ambiguous text n)) rest s
    | (.error e, s) =>
      let (found, s) := searchFrom lookup sought (failed <|> some e) ambiguous rest s
      ((Logged.report .warn "User lookup failed, trying next identifier"
        [("identifier", id.text), ("error", e.message)]).bind fun _ => found, s)

/-- The user that the first resolvable candidate names, and the state that the search leaves. -/
def search (lookup : Identifier → σ → Except UserError User × σ) (candidates : IdentifierSet) (s : σ) :
    Logged (Except UserError User) × σ :=
  searchFrom lookup candidates.text none none candidates.toList s

theorem searchFrom_constant (lookup : Identifier → Except UserError User) (sought : String)
    (failed ambiguous : Option UserError) (ids : List Identifier) (s : σ) :
    searchFrom (fun id s => (lookup id, s)) sought failed ambiguous ids s =
      (firstResolved lookup sought failed ambiguous ids, s) := by
  induction ids generalizing failed ambiguous with
  | nil => rfl
  | cons id rest ih =>
    unfold searchFrom firstResolved
    cases lookup id with
    | ok user => rfl
    | error e => cases e <;> simp only [ih]

/-- Where look-ups change nothing this is the search of the stores. -/
theorem search_constant (lookup : Identifier → Except UserError User) (candidates : IdentifierSet)
    (s : σ) : search (fun id s => (lookup id, s)) candidates s = (findBy lookup candidates, s) :=
  searchFrom_constant lookup candidates.text none none candidates.toList s

/-! ### What is asked -/

/-- A look-up that was made, and its answer. -/
abbrev Look : Type :=
  Identifier × Except UserError User

/-- A store is asked this, one look-up after another, and goes from the one state to the other. -/
inductive Asks (lookup : Identifier → σ → Except UserError User × σ) : σ → List Look → σ → Prop
  | done (s : σ) : Asks lookup s [] s
  | ask {id : Identifier} {answer : Except UserError User} {s s' s'' : σ} {asked : List Look}
      (hask : lookup id s = (answer, s')) (hrest : Asks lookup s' asked s'') :
      Asks lookup s ((id, answer) :: asked) s''

theorem Asks.answers {lookup : Identifier → Except UserError User} {s s' : σ} {asked : List Look}
    (h : Asks (fun id s => (lookup id, s)) s asked s') : ∀ look ∈ asked, look.2 = lookup look.1 := by
  induction h with
  | done s => exact fun _ h => absurd h List.not_mem_nil
  | ask hask _ ih => exact List.forall_mem_cons.mpr ⟨(congrArg Prod.fst hask).symm, ih⟩

/-- The failure of a look-up, if the store or a record was at fault. -/
def failureOf? : Look → Option UserError
  | (_, .error (.storage reason)) => some (.storage reason)
  | (_, .error (.badRecord fault)) => some (.badRecord fault)
  | _ => none

def ambiguityOf? : Look → Option UserError
  | (_, .error (.ambiguous sought count)) => some (.ambiguous sought count)
  | _ => none

/-- The warning that follows a look-up that failed. -/
def warning? (look : Look) : Option Log.Record :=
  (failureOf? look).map fun e => ⟨.warn, "User lookup failed, trying next identifier",
    [("identifier", look.1.text), ("error", e.message)]⟩

/-- None of the look-ups gave a user. -/
def Unresolved (asked : List Look) : Prop :=
  ∀ look ∈ asked, ∀ u, look.2 ≠ .ok u

/-- What comes of look-ups that gave no user: the first failure, or else the first ambiguity, or else
that nobody was found. -/
def fault (sought : String) (asked : List Look) : UserError :=
  ((asked.findSome? failureOf?) <|> asked.findSome? ambiguityOf?).getD (.notFound sought)

/-- How a search among candidates ends: with the user whom the last look-up gave, or after all look-ups. -/
inductive Ends (sought : String) (ids : List Identifier) : List Look → Except UserError User → Prop
  | found {before : List Look} {id : Identifier} {u : User} (hbefore : Unresolved before) :
      Ends sought ids (before ++ [(id, .ok u)]) (.ok u)
  | exhausted {asked : List Look} (hall : asked.map Prod.fst = ids) (hnone : Unresolved asked) :
      Ends sought ids asked (.error (fault sought asked))

/-- These look-ups, in key order, make up a search among the candidates with this result. -/
structure SearchesInOrder (candidates : IdentifierSet) (asked : List Look)
    (found : Logged (Except UserError User)) : Prop where
  isPrefix : asked.map Prod.fst <+: candidates.toList
  ascending : asked.Pairwise fun look later => compare look.1.key later.1.key = .lt
  ends : Ends candidates.text candidates.toList asked found.value
  log : found.log = asked.filterMap warning?

/-! ### One look-up -/

/-- What is kept to be reported when no user is found. -/
def Kept (asked : List Look) (failed ambiguous : Option UserError) : Prop :=
  failed = asked.findSome? failureOf? ∧ ambiguous = asked.findSome? ambiguityOf?

theorem Kept.add {asked : List Look} {failed ambiguous : Option UserError}
    (h : Kept asked failed ambiguous) (look : Look) :
    Kept (asked ++ [look]) (failed <|> failureOf? look) (ambiguous <|> ambiguityOf? look) := by
  obtain ⟨rfl, rfl⟩ := h
  constructor <;> simp [List.findSome?_append]

theorem Unresolved.add {asked : List Look} (h : Unresolved asked) (id : Identifier) (e : UserError) :
    Unresolved (asked ++ [(id, .error e)]) := by
  intro look hlook u
  rcases List.mem_append.mp hlook with hlook | hlook
  · exact h look hlook u
  · obtain rfl := List.mem_singleton.mp hlook
    intro hu
    cases hu

/-- After a look-up that gives no user the search goes on, with what is to be kept of it. -/
theorem searchFrom_of_error {lookup : Identifier → σ → Except UserError User × σ} {id : Identifier}
    {s s' : σ} {e : UserError} (h : lookup id s = (.error e, s')) (sought : String)
    (failed ambiguous : Option UserError) (rest : List Identifier) :
    let after := searchFrom lookup sought (failed <|> failureOf? (id, .error e))
      (ambiguous <|> ambiguityOf? (id, .error e)) rest s'
    searchFrom lookup sought failed ambiguous (id :: rest) s =
      (⟨after.1.value, (warning? (id, .error e)).toList ++ after.1.log⟩, after.2) := by
  intro after
  rw [searchFrom]
  cases e <;> simp [h, after, failureOf?, ambiguityOf?, warning?, Logged.report, Logged.bind]

/-! ### The whole search -/

theorem fault_of_kept {asked : List Look} {failed ambiguous : Option UserError}
    (h : Kept asked failed ambiguous) (sought : String) :
    (failed <|> ambiguous).getD (.notFound sought) = fault sought asked := by
  obtain ⟨rfl, rfl⟩ := h
  rfl

/-- The search goes on from look-ups that gave no user and ends as a whole. -/
theorem searchFrom_ends (lookup : Identifier → σ → Except UserError User × σ) (sought : String)
    {earlier : List Look} {failed ambiguous : Option UserError} (hnone : Unresolved earlier)
    (hkept : Kept earlier failed ambiguous) (ids : List Identifier) (s : σ) :
    let run := searchFrom lookup sought failed ambiguous ids s
    ∃ asked, Asks lookup s asked run.2 ∧ asked.map Prod.fst <+: ids ∧
      Ends sought (earlier.map Prod.fst ++ ids) (earlier ++ asked) run.1.value ∧
      run.1.log = asked.filterMap warning? := by
  -- What has been kept is always what the look-ups so far have to report.
  induction ids generalizing earlier failed ambiguous s with
  | nil =>
    refine ⟨[], .done s, List.prefix_rfl, ?_, rfl⟩
    rw [searchFrom, fault_of_kept hkept, List.append_nil, List.append_nil]
    exact .exhausted rfl hnone
  | cons id rest ih =>
    rcases hask : lookup id s with ⟨answer, s'⟩
    cases answer with
    | ok user =>
      rw [searchFrom, hask]
      exact ⟨[(id, .ok user)], .ask hask (.done s'), List.prefix_append [id] rest, .found hnone, rfl⟩
    | error e =>
      rw [searchFrom_of_error hask]
      obtain ⟨asked, hasks, hprefix, hends, hlog⟩ := ih (hnone.add id e) (hkept.add (id, .error e)) s'
      refine ⟨(id, .error e) :: asked, .ask hask hasks, ?_, ?_, ?_⟩
      · exact (List.prefix_cons_inj id).mpr hprefix
      · simpa using hends
      · rw [hlog, List.filterMap_cons]
        cases warning? (id, .error e) <;> rfl

theorem search_ends (lookup : Identifier → σ → Except UserError User × σ) (candidates : IdentifierSet)
    (s : σ) : ∃ asked, Asks lookup s asked (search lookup candidates s).2 ∧
      SearchesInOrder candidates asked (search lookup candidates s).1 := by
  have hnone : Unresolved [] := fun _ h => absurd h List.not_mem_nil
  have hkept : Kept [] none none := ⟨rfl, rfl⟩
  obtain ⟨asked, hasks, hprefix, hends, hlog⟩ :=
    searchFrom_ends lookup candidates.text hnone hkept candidates.toList s
  refine ⟨asked, hasks, hprefix, ?_, hends, hlog⟩
  have hascending := candidates.ascending.sublist hprefix.sublist
  rwa [List.pairwise_map] at hascending

/-- Whatever a store answers or fails with: candidates are looked up in key order until one gives a user,
and no further. If none does, the first failure is reported, else the first ambiguity, else that nobody
was found. For each look-up that failed there is a warning. A store that look-ups leave as it is searches
in this way. -/
theorem find_asks_until_resolved (candidates : IdentifierSet) :
    (∀ (σ : Type) (lookup : Identifier → σ → Except UserError User × σ) (s : σ),
      ∃ asked, Asks lookup s asked (search lookup candidates s).2 ∧
        SearchesInOrder candidates asked (search lookup candidates s).1) ∧
      (∀ (σ : Type) (lookup : Identifier → Except UserError User) (s : σ),
        search (fun id s => (lookup id, s)) candidates s = (findBy lookup candidates, s)) ∧
      ∀ store : UserStore, ∃ asked, (∀ look ∈ asked, look.2 = store.resolve look.1) ∧
        SearchesInOrder candidates asked (store.find candidates) := by
  refine ⟨fun σ lookup s => search_ends lookup candidates s,
    fun σ lookup s => search_constant lookup candidates s, fun store => ?_⟩
  obtain ⟨asked, hasks, hsearch⟩ := search_ends (fun id s => (store.resolve id, s)) candidates ()
  rw [search_constant] at hsearch
  exact ⟨asked, hasks.answers, hsearch⟩

end Herald.UserStore
