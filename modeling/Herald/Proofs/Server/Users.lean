import Herald.Proofs.Server.History
import Herald.Proofs.User.Rewriting

/-!
What requests leave of the users. Whatever is asked of a server, its users keep their places, their keys
and what they are known by; all that can change is what somebody prefers, and only by a request that
replaces just that.
-/

namespace Herald.Server

/-- A visit replaces the preferences of the user that it names, or it changes nothing that is stored. -/
theorem Visit.store_outcome (v : Visit) (s : Server) :
    (∃ key, v.Replaces s key ∧ s.store.Rewritten (· = key) (v.outcome s).2.1.store) ∨
      (∀ key, ¬v.Replaces s key) ∧ (v.outcome s).2.1.store = s.store := by
  obtain ⟨key, m, store, hreplaces, -, hset, heq⟩ | ⟨hnone, hworked⟩ :=
    store_handle v.arrival v.request s v.timeline
  · refine .inl ⟨key, hreplaces, ?_⟩
    rw [outcome, heq]
    exact .of_setPreferences hset
  · refine .inr ⟨hnone, ?_⟩
    rw [outcome, hworked.eq]

/-- Only users who are not spared have other preferences after some visits. -/
theorem rewritten_after (s : Server) (visits : List Visit) :
    s.store.Rewritten (fun key => ¬s.Spares key visits) (s.after visits).store := by
  induction visits generalizing s with
  | nil => exact .refl s.store
  | cons v rest ih =>
    have hrest := (ih (v.outcome s).2.1).mono fun key hkey (hspares : s.Spares key (v :: rest)) =>
      hkey hspares.2
    obtain ⟨key, hreplaces, hfirst⟩ | ⟨-, hsame⟩ := v.store_outcome s
    · refine (hfirst.mono fun key' hkey' hspares => ?_).trans hrest
      subst hkey'
      exact hspares.1 hreplaces
    · rw [hsame] at hrest
      exact hrest

/-- Through these visits all users stay as they are, but for the preferences of those who are not spared,
and everybody is found as before. -/
structure KeepsUsers (s : Server) (visits : List Visit) : Prop where
  users : s.store.Rewritten (fun key => ¬s.Spares key visits) (s.after visits).store
  resolve : ∀ id, UserStore.Persists (User.Rewritten fun key => ¬s.Spares key visits)
    (s.store.resolve id) ((s.after visits).store.resolve id)
  find : ∀ candidates, s.store.Reads candidates →
    UserStore.Alike (User.Rewritten fun key => ¬s.Spares key visits)
      (s.store.find candidates).value ((s.after visits).store.find candidates).value
  /-- The next visit replaces what one user prefers, or changes nothing that is stored. -/
  next : ∀ v : Visit,
    (∃ key, v.Replaces (s.after visits) key ∧ (s.after visits).store.Rewritten (· = key)
      (s.after (visits ++ [v])).store) ∨
    (∀ key, ¬v.Replaces (s.after visits) key) ∧
      (s.after (visits ++ [v])).store = (s.after visits).store

/-- Whatever a server is asked, its users stay as they are but for what they prefer. -/
theorem users_stay_through_visits (s : Server) (visits : List Visit) : s.KeepsUsers visits where
  users := rewritten_after s visits
  resolve id := (rewritten_after s visits).persists_resolve id
  find _ hreads := (rewritten_after s visits).alike_find hreads
  next v := by
    rw [after_append]
    exact v.store_outcome (s.after visits)

end Herald.Server
