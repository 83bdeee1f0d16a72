import Herald.User.Directory
import Mathlib.Data.List.Nodup

/-!
Directories in which keys are unique. An update reaches the one user it is meant for, and keys stay
unique.
-/

namespace Herald.Directory

variable {users : Directory}

/-- No two users have the same key. -/
def Unique (users : Directory) : Prop :=
  (users.map User.key).Nodup

/-- True if some user has this key. -/
def hasKey (users : Directory) (key : String) : Bool :=
  users.any fun u => u.key == key

/-- Changes every user with this key. -/
def update (key : String) (change : User → User) (users : Directory) : Directory :=
  users.map fun u => if u.key = key then change u else u

@[simp] theorem unique_nil : Unique [] := List.nodup_nil

@[simp] theorem unique_cons {u : User} :
    Unique (u :: users) ↔ users.hasKey u.key = false ∧ Unique users := by
  simp only [Unique, hasKey, List.map_cons, List.nodup_cons, List.any_eq_false, beq_iff_eq,
    List.mem_map, not_exists, not_and]

theorem update_of_hasKey_eq_false {key : String} (h : users.hasKey key = false)
    (change : User → User) : users.update key change = users := by
  refine (List.map_congr_left fun u hu => if_neg ?_).trans (List.map_id users)
  simpa using List.any_eq_false.mp h u hu

/-- Where keys are unique, changing the first user with a key changes every such user. -/
theorem modify_eq (h : users.Unique) (key : String) (change : User → User) :
    modify key change users =
      if users.hasKey key then some (users.update key change) else none := by
  induction users with
  | nil => rfl
  | cons u rest ih =>
    obtain ⟨hfirst, hrest⟩ := unique_cons.mp h
    unfold modify
    by_cases hkey : u.key = key
    · subst hkey
      have hhas : hasKey (u :: rest) u.key = true := by simp [hasKey]
      have hsame := update_of_hasKey_eq_false hfirst change
      rw [if_pos rfl, if_pos hhas, update, List.map_cons, if_pos rfl]
      exact congrArg (fun rest => some (change u :: rest)) hsame.symm
    · have hhas : hasKey (u :: rest) key = hasKey rest key := by simp [hasKey, hkey]
      rw [if_neg hkey, ih hrest, hhas]
      cases hasKey rest key with
      | true => simp [update, hkey]
      | false => rfl

theorem map_key_update {key : String} {change : User → User}
    (h : ∀ u, u.key = key → (change u).key = key) :
    (users.update key change).map User.key = users.map User.key := by
  rw [update, List.map_map]
  apply List.map_congr_left
  intro u _
  by_cases hkey : u.key = key
  · simp [hkey, h]
  · simp [hkey]

theorem unique_update (hunique : users.Unique) {key : String} {change : User → User}
    (h : ∀ u, u.key = key → (change u).key = key) : (users.update key change).Unique := by
  rw [Unique, map_key_update h]
  exact hunique

theorem setPreferences_eq (h : users.Unique) (key : String) (preferences : PreferenceMap) :
    users.setPreferences key preferences =
      if users.hasKey key then .ok (users.update key fun u => { u with preferences })
      else .error (.notFound key) := by
  rw [setPreferences, modify_eq h]
  cases users.hasKey key <;> rfl

theorem put_eq (h : users.Unique) (user : User) :
    users.put user =
      if users.hasKey user.key then users.update user.key fun _ => user else users ++ [user] := by
  rw [put, modify_eq h]
  cases users.hasKey user.key <;> rfl

theorem unique_put (h : users.Unique) (user : User) : (users.put user).Unique := by
  rw [put_eq h]
  split
  · exact unique_update h fun _ _ => rfl
  · rename_i hnone
    have hnone : user.key ∉ users.map User.key := by simpa [hasKey] using hnone
    rw [Unique, List.map_append, List.map_cons, List.map_nil, ← List.concat_eq_append]
    exact h.concat hnone

theorem unique_setPreferences (h : users.Unique) {key : String} {preferences : PreferenceMap}
    {users' : Directory} (hset : users.setPreferences key preferences = .ok users') :
    users'.Unique := by
  rw [setPreferences_eq h] at hset
  split at hset
  · cases hset
    exact unique_update h fun _ hkey => hkey
  · cases hset

end Herald.Directory
