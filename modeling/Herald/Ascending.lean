/-!
Lists kept in strictly ascending order of a key, with one entry per key. Such a list is the normal
form of a finite map: look-ups determine it, and every operation below keeps the order.
-/

namespace Herald

/-- Entries in strictly ascending order of `key`. -/
@[ext]
structure Ascending (α : Type) {κ : Type} [Ord κ] (key : α → κ) where
  toList : List α
  ascending : toList.Pairwise fun a b => compare (key a) (key b) = .lt

/-- A finite map from text, in code point order of its keys. -/
abbrev Dictionary (α : Type) : Type :=
  Ascending (String × α) Prod.fst

namespace Ascending

variable {α κ : Type} [Ord κ] {key : α → κ}

/-- Puts `a` at its place in an ascending list; an entry with the same key gives way to it. -/
def insertInto (key : α → κ) (a : α) : List α → List α
  | [] => [a]
  | b :: rest =>
    match compare (key a) (key b) with
    | .lt => a :: b :: rest
    | .eq => a :: rest
    | .gt => b :: insertInto key a rest

theorem mem_of_mem_insertInto {a x : α} {entries : List α}
    (h : x ∈ insertInto key a entries) : x = a ∨ x ∈ entries := by
  induction entries with
  | nil => exact Or.inl (List.mem_singleton.mp h)
  | cons b rest ih =>
    unfold insertInto at h
    split at h
    · simpa using h
    · rcases List.mem_cons.mp h with h | h
      · exact Or.inl h
      · exact Or.inr (List.mem_cons_of_mem _ h)
    · rcases List.mem_cons.mp h with h | h
      · exact Or.inr (h ▸ List.mem_cons_self)
      · exact (ih h).imp_right (List.mem_cons_of_mem _)

theorem insertInto_ascending [Std.TransOrd κ] (a : α) {entries : List α}
    (h : entries.Pairwise fun a b => compare (key a) (key b) = .lt) :
    (insertInto key a entries).Pairwise fun a b => compare (key a) (key b) = .lt := by
  induction entries with
  | nil => exact List.pairwise_singleton ..
  | cons b rest ih =>
    obtain ⟨below, rest_ascending⟩ := List.pairwise_cons.mp h
    unfold insertInto
    split
    · rename_i lt
      refine List.pairwise_cons.mpr ⟨fun c hc => ?_, h⟩
      rcases List.mem_cons.mp hc with rfl | hc
      · exact lt
      · exact Std.TransCmp.lt_trans lt (below c hc)
    · rename_i eq
      exact List.pairwise_cons.mpr
        ⟨fun c hc => Std.TransCmp.lt_of_eq_of_lt eq (below c hc), rest_ascending⟩
    · rename_i gt
      refine List.pairwise_cons.mpr ⟨fun c hc => ?_, ih rest_ascending⟩
      rcases mem_of_mem_insertInto hc with rfl | hc
      · exact Std.OrientedCmp.gt_iff_lt.mp gt
      · exact below c hc

def empty : Ascending α key :=
  ⟨[], List.Pairwise.nil⟩

instance : EmptyCollection (Ascending α key) := ⟨empty⟩

instance : Inhabited (Ascending α key) := ⟨empty⟩

/-- Adds an entry; an entry with the same key gives way to it. -/
def insert [Std.TransOrd κ] (a : α) (m : Ascending α key) : Ascending α key :=
  ⟨insertInto key a m.toList, insertInto_ascending a m.ascending⟩

/-- Adds the entries one after another, so of several with the same key the last stays. -/
def insertAll [Std.TransOrd κ] (m : Ascending α key) (entries : List α) : Ascending α key :=
  entries.foldl (fun m a => m.insert a) m

/-- The entries of a list; of several with the same key the last stays. -/
def ofList [Std.TransOrd κ] (entries : List α) : Ascending α key :=
  insertAll ∅ entries

def filter (p : α → Bool) (m : Ascending α key) : Ascending α key :=
  ⟨m.toList.filter p, m.ascending.filter p⟩

def lookup? (m : Ascending α key) (k : κ) : Option α :=
  m.toList.find? fun a => compare (key a) k == .eq

def hasKey (m : Ascending α key) (k : κ) : Bool :=
  (m.lookup? k).isSome

def size (m : Ascending α key) : Nat :=
  m.toList.length

def isEmpty (m : Ascending α key) : Bool :=
  m.toList.isEmpty

instance [DecidableEq α] : DecidableEq (Ascending α key) := fun m n =>
  decidable_of_iff (m.toList = n.toList) ⟨Ascending.ext, fun h => h ▸ rfl⟩

instance [BEq α] : BEq (Ascending α key) := ⟨fun m n => m.toList == n.toList⟩

end Ascending

namespace Dictionary

variable {α : Type}

def get? (m : Dictionary α) (k : String) : Option α :=
  (m.lookup? k).map Prod.snd

def set (m : Dictionary α) (k : String) (a : α) : Dictionary α :=
  m.insert (k, a)

/-- The keys in ascending order. -/
def keys (m : Dictionary α) : List String :=
  m.toList.map Prod.fst

def values (m : Dictionary α) : List α :=
  m.toList.map Prod.snd

end Dictionary

end Herald
