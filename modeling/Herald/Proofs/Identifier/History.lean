import Herald.Proofs.Identifier.Algebra
import Herald.Proofs.User.Decoding

/-!
Sets of identifiers that change. Whatever is done with sets one after another, each holds under each key the
value that was given to this key last, and stays in canonical form. It does not matter whether a set is
combined with another one or with itself.
-/

namespace Herald.IdentifierSet

/-- Something that is done with sets that are kept in numbered places. -/
inductive Action where
  | new (place : Nat)
  | collect (place : Nat) (ids : List Identifier)
  | add (place : Nat) (id : Identifier)
  /-- What is in the other place is merged in; it may be the same place. -/
  | merge (place other : Nat)
  /-- What two places have in common; they may be the same. -/
  | intersect (place first second : Nat)
  | clone (place original : Nat)
  /-- Reads a set; if this fails nothing changes. -/
  | decode (place : Nat) (t : Json.Tree)

/-- Sets by the place where they are kept. -/
abbrev Shelf : Type :=
  Nat → IdentifierSet

namespace Shelf

def apply (shelf : Shelf) : Action → Shelf
  | .new place => Function.update shelf place ∅
  | .collect place ids => Function.update shelf place (Ascending.ofList ids)
  | .add place id => Function.update shelf place (Ascending.insert id (shelf place))
  | .merge place other => Function.update shelf place ((shelf place).merge (shelf other))
  | .intersect place first second =>
    -- A set is not searched for its own identifiers.
    Function.update shelf place
      (if first = second then shelf first else (shelf first).intersect (shelf second))
  | .clone place original => Function.update shelf place (shelf original)
  | .decode place t =>
    match decoder t with
    | .ok s => Function.update shelf place s
    | .error _ => shelf

/-- All places begin empty. -/
def after (actions : List Action) : Shelf :=
  actions.foldl apply fun _ => ∅

end Shelf

/-! ### What is known -/

/-- The values known under keys. -/
abbrev Known : Type :=
  Identifier.Key → Option String

def known (s : IdentifierSet) : Known := fun k =>
  (s.get? k).map Identifier.value

def Shelf.known (shelf : Shelf) : Nat → Known := fun place =>
  (shelf place).known

/-- What is known of identifiers that are collected: of several values for a key the last one. -/
def collected (ids : List Identifier) : Known :=
  lastText (ids.map fun id => (id.key, id.value))

/-- What somebody knows who sees only keys and values, before and after something is done. -/
inductive Does (known : Nat → Known) : Action → (Nat → Known) → Prop
  | new (place : Nat) : Does known (.new place) (Function.update known place fun _ => none)
  | collect (place : Nat) (ids : List Identifier) :
      Does known (.collect place ids) (Function.update known place (collected ids))
  | add (place : Nat) (id : Identifier) :
      Does known (.add place id)
        (Function.update known place (Function.update (known place) id.key (some id.value)))
  | merge (place other : Nat) :
      Does known (.merge place other)
        (Function.update known place fun k => (known other k).or (known place k))
  | intersect (place first second : Nat) :
      Does known (.intersect place first second)
        (Function.update known place fun k =>
          if known first k = known second k then known first k else none)
  | clone (place original : Nat) :
      Does known (.clone place original) (Function.update known place (known original))
  | decode (place : Nat) {members : Json.Members} {pairs : List (Identifier.Key × String)}
      (hspells : Spells members pairs) (hvalues : ∀ k, lastText pairs k ≠ some "") :
      Does known (.decode place (.object members)) (Function.update known place (lastText pairs))
  | refuse (place : Nat) {t : Json.Tree} (hnone : ¬∃ members pairs, t = .object members ∧
      Spells members pairs ∧ ∀ k, lastText pairs k ≠ some "") :
      Does known (.decode place t) known

/-- What is known after all this was done, beginning with nothing. -/
inductive Evolves : List Action → (Nat → Known) → Prop
  | start : Evolves [] fun _ _ => none
  | act {earlier : List Action} {known known' : Nat → Known} {action : Action}
      (h : Evolves earlier known) (hdoes : Does known action known') :
      Evolves (earlier ++ [action]) known'

/-! ### One action -/

variable {s t : IdentifierSet} {k : Identifier.Key}

@[simp] theorem known_ofList (ids : List Identifier) :
    known (Ascending.ofList ids) = collected ids := by
  funext k
  rw [known, get?, Ascending.ofList, Ascending.lookup?_insertAll, Ascending.lookup?_empty,
    Option.or_none, collected, lastText, ← List.map_reverse, List.find?_map, Option.map_map]
  rfl

@[simp] theorem known_insert (s : IdentifierSet) (id : Identifier) :
    known (Ascending.insert id s) = Function.update s.known id.key (some id.value) := by
  funext k
  rw [known, get?, Ascending.lookup?_insert, Function.update_apply]
  by_cases hk : id.key = k
  · rw [if_pos hk, if_pos hk.symm, Option.map_some]
  · rw [if_neg hk, if_neg (Ne.symm hk)]
    rfl

@[simp] theorem known_merge (s t : IdentifierSet) :
    (s.merge t).known = fun k => (t.known k).or (s.known k) := by
  funext k
  rw [known, get?_merge, Option.map_or]
  rfl

/-- Two sets have the same value under a key exactly if they have the same identifier there. -/
theorem known_eq_iff : s.known k = t.known k ↔ s.get? k = t.get? k := by
  refine ⟨fun h => ?_, fun h => congrArg (Option.map Identifier.value) h⟩
  rw [known, known] at h
  cases hs : s.get? k with
  | none =>
    rw [hs] at h
    exact (Option.map_eq_none_iff.mp h.symm).symm
  | some id =>
    rw [hs] at h
    obtain ⟨other, hother, hvalue⟩ := Option.map_eq_some_iff.mp h.symm
    have hkey : other.key = id.key := (key_of_get? hother).trans (key_of_get? hs).symm
    have hmade := Identifier.Key.withValue_eq_ok_iff.mpr ⟨hkey, hvalue⟩
    rw [hother, Except.ok.inj (hmade.symm.trans id.withValue_value)]

@[simp] theorem known_intersect (s t : IdentifierSet) :
    (s.intersect t).known = fun k => if s.known k = t.known k then s.known k else none := by
  funext k
  simp only [known_eq_iff]
  rw [known, get?_intersect]
  split <;> rfl

@[simp] theorem known_update (shelf : Shelf) (place : Nat) (s : IdentifierSet) :
    Shelf.known (Function.update shelf place s) = Function.update shelf.known place s.known := by
  funext other
  rw [Shelf.known, Function.update_apply, Function.update_apply]
  split <;> rfl

/-- What is read is what was spelled, and what is spelled with a value for each key is read. -/
theorem does_decode (shelf : Shelf) (place : Nat) (tree : Json.Tree) :
    Does shelf.known (.decode place tree) (shelf.apply (.decode place tree)).known := by
  rw [Shelf.apply]
  cases hdecoder : decoder tree with
  | ok s =>
    obtain ⟨members, pairs, rfl, hspells, hlast⟩ := decoder_eq_ok_iff.mp hdecoder
    have hknown : s.known = lastText pairs := funext hlast
    rw [known_update, hknown]
    refine .decode place hspells fun k hempty => ?_
    rw [← hlast k] at hempty
    obtain ⟨id, -, hvalue⟩ := Option.map_eq_some_iff.mp hempty
    exact id.value_ne_empty hvalue
  | error fault =>
    refine .refuse place fun hspelled => ?_
    obtain ⟨s, hs⟩ := (exists_decoder_eq_ok_iff tree).mpr hspelled
    rw [hs] at hdecoder
    cases hdecoder

/-- What is done with sets is done with what is known of them. -/
theorem does_apply (shelf : Shelf) (action : Action) :
    Does shelf.known action (shelf.apply action).known := by
  cases action with
  | new place =>
    rw [Shelf.apply, known_update]
    exact .new place
  | collect place ids =>
    rw [Shelf.apply, known_update, known_ofList]
    exact .collect place ids
  | add place id =>
    rw [Shelf.apply, known_update, known_insert]
    exact .add place id
  | merge place other =>
    rw [Shelf.apply, known_update, known_merge]
    exact .merge place other
  | intersect place first second =>
    -- The shortcut for one and the same set gives what the search would give.
    have hshortcut : (if first = second then shelf first else (shelf first).intersect (shelf second)) =
        (shelf first).intersect (shelf second) := by
      split
      · rename_i hsame
        rw [hsame, intersect_self]
      · rfl
    rw [Shelf.apply, hshortcut, known_update, known_intersect]
    exact .intersect place first second
  | clone place original =>
    rw [Shelf.apply, known_update]
    exact .clone place original
  | decode place tree => exact does_decode shelf place tree

/-! ### Many actions -/

theorem evolves_after (actions : List Action) : Evolves actions (Shelf.after actions).known := by
  induction actions using List.reverseRecOn with
  | nil => exact .start
  | append_singleton earlier action ih =>
    rw [Shelf.after, List.foldl_append]
    exact .act ih (does_apply (Shelf.after earlier) action)

/-- Whatever is done with sets, they hold what was made known of them and stay in canonical form; and they
answer by their lists and are combined by the laws of maps, a set with itself like two sets. -/
theorem sets_stay_canonical :
    (∀ actions, Evolves actions (Shelf.after actions).known ∧
      ∀ place, (Shelf.after actions place).Canonical) ∧ AnswersByList ∧ CombinesLawfully :=
  ⟨fun actions => ⟨evolves_after actions, fun _ => canonical _⟩, answersByList, combinesLawfully⟩

end Herald.IdentifierSet
