import Herald.Preference.Provider

/-!
What providers answer. The wishes stored for whoever the recipient resolves to come first in a chain
that begins with them, and a provider that knows no users answers the same for every recipient. The
built-in ones look at nothing but the recipient and the type of the event.
-/

namespace Herald.Provider

variable {n : Notification} {transport : String}

@[simp] theorem value_firstOpinion_cons (p : Provider) (rest : List Provider) :
    (firstOpinion n transport (p :: rest)).value =
      (p.wants n transport).value.or (firstOpinion n transport rest).value := by
  rw [firstOpinion, Logged.value_bind]
  cases (p.wants n transport).value <;> rfl

/-- The wish that counts is the one stored for the user that the recipient resolves to. -/
theorem value_storedWish {store : UserStore} {u : User}
    (h : (store.find n.recipient).value = .ok u) :
    (storedWish store n transport).value = u.preferences.wish? n.context.type transport := by
  have hsomebody : n.recipient.isEmpty = false := by
    rw [Bool.eq_false_iff]
    intro hempty
    have hnil : n.recipient.toList = [] := List.isEmpty_iff.mp hempty
    rw [UserStore.find, UserStore.findBy, hnil] at h
    cases h
  rw [storedWish, hsomebody, if_neg Bool.false_ne_true, Logged.value_bind, h]
  rfl

/-- Stored wishes come before all others. -/
theorem value_wants_users_first {store : UserStore} {fallback : Provider} {u : User}
    (h : (store.find n.recipient).value = .ok u) :
    ((chain [.users store, fallback]).wants n transport).value =
      (u.preferences.wish? n.context.type transport).or (fallback.wants n transport).value := by
  rw [wants, value_firstOpinion_cons, value_firstOpinion_cons, wants, value_storedWish h]
  simp [firstOpinion]

/-! ### Providers that know no users -/

mutual

/-- True for a provider that nowhere asks who the recipient is. -/
def isImpersonal : Provider → Bool
  | .users _ => false
  | .own => false
  | .custom _ _ => false
  | .chain providers => allImpersonal providers
  | _ => true

@[inherit_doc isImpersonal]
def allImpersonal : List Provider → Bool
  | [] => true
  | p :: rest => p.isImpersonal && allImpersonal rest

end

mutual

/-- Such a provider looks at nothing but the type of the event. -/
theorem wants_eq_of_isImpersonal {n' : Notification} (htype : n'.context.type = n.context.type)
    (p : Provider) (h : p.isImpersonal) : p.wants n' transport = p.wants n transport :=
  match p with
  | .map wishes => by rw [wants, wants, htype]
  | .always answer => by rw [wants, wants]
  | .users store => by simp [isImpersonal] at h
  | .own => by simp [isImpersonal] at h
  | .custom opinion _ => by simp [isImpersonal] at h
  | .chain providers => by
    rw [wants, wants]
    exact firstOpinion_eq_of_allImpersonal htype providers h
  | .fixed answer _ => by rw [wants, wants]

@[inherit_doc wants_eq_of_isImpersonal]
theorem firstOpinion_eq_of_allImpersonal {n' : Notification}
    (htype : n'.context.type = n.context.type) (ps : List Provider) (h : allImpersonal ps) :
    firstOpinion n' transport ps = firstOpinion n transport ps :=
  match ps with
  | [] => by rw [firstOpinion, firstOpinion]
  | p :: rest => by
    have hboth : p.isImpersonal ∧ allImpersonal rest := by simpa [allImpersonal] using h
    rw [firstOpinion, firstOpinion, wants_eq_of_isImpersonal htype p hboth.1,
      firstOpinion_eq_of_allImpersonal htype rest hboth.2]

end

mutual

/-- The store of a server makes no difference to such a provider. -/
theorem withStore_of_isImpersonal (store : UserStore) (p : Provider) (h : p.isImpersonal) :
    p.withStore store = p :=
  match p with
  | .map _ | .always _ | .users _ | .fixed _ _ | .custom _ _ => rfl
  | .own => by simp [isImpersonal] at h
  | .chain providers => congrArg chain (allWithStore_of_allImpersonal store providers h)

@[inherit_doc withStore_of_isImpersonal]
theorem allWithStore_of_allImpersonal (store : UserStore) (ps : List Provider) (h : allImpersonal ps) :
    allWithStore store ps = ps :=
  match ps with
  | [] => rfl
  | p :: rest => by
    have hboth : p.isImpersonal ∧ allImpersonal rest := by simpa [allImpersonal] using h
    rw [allWithStore, withStore_of_isImpersonal store p hboth.1,
      allWithStore_of_allImpersonal store rest hboth.2]

end

/-! ### Providers over a store -/

theorem storedWish_of_isEmpty (store : UserStore) (h : n.recipient.isEmpty) :
    storedWish store n transport = .pure none := by
  rw [storedWish, if_pos h]

mutual

/-- Nobody is looked up for a notification to nobody. -/
theorem wants_withStore_of_isEmpty (store store' : UserStore) (h : n.recipient.isEmpty) (p : Provider) :
    (p.withStore store').wants n transport = (p.withStore store).wants n transport :=
  match p with
  | .map _ | .always _ | .users _ | .fixed _ _ | .custom _ _ => rfl
  | .own => by
    rw [withStore, withStore, wants, wants, storedWish_of_isEmpty store' h,
      storedWish_of_isEmpty store h]
  | .chain providers => by
    rw [withStore, withStore, wants, wants]
    exact firstOpinion_withStore_of_isEmpty store store' h providers

@[inherit_doc wants_withStore_of_isEmpty]
theorem firstOpinion_withStore_of_isEmpty (store store' : UserStore) (h : n.recipient.isEmpty)
    (ps : List Provider) :
    firstOpinion n transport (allWithStore store' ps) =
      firstOpinion n transport (allWithStore store ps) :=
  match ps with
  | [] => rfl
  | p :: rest => by
    rw [allWithStore, allWithStore, firstOpinion, firstOpinion,
      wants_withStore_of_isEmpty store store' h p, firstOpinion_withStore_of_isEmpty store store' h rest]

end

/-! ### Providers that are not from elsewhere -/

mutual

/-- True for a provider that nowhere asks one from elsewhere. -/
def isBuiltIn : Provider → Bool
  | .custom _ _ => false
  | .chain providers => allBuiltIn providers
  | _ => true

@[inherit_doc isBuiltIn]
def allBuiltIn : List Provider → Bool
  | [] => true
  | p :: rest => p.isBuiltIn && allBuiltIn rest

end

mutual

/-- Such a provider looks at nothing but the recipient and the type of the event, and in the store at
nothing but what the recipient wishes. -/
theorem value_wants_withStore {store store' : UserStore} {n' : Notification}
    (hrecipient : n'.recipient = n.recipient) (htype : n'.context.type = n.context.type)
    (hstored : (storedWish store' n' transport).value = (storedWish store n transport).value)
    (p : Provider) (h : p.isBuiltIn) :
    ((p.withStore store').wants n' transport).value = ((p.withStore store).wants n transport).value :=
  match p with
  | .map wishes => by simp only [withStore, wants, htype]
  | .always _ | .fixed _ _ => rfl
  | .users store => by simp only [withStore, wants, storedWish, hrecipient, htype]
  | .own => by rw [withStore, withStore, wants, wants, hstored]
  | .custom opinion _ => by simp [isBuiltIn] at h
  | .chain providers => by
    rw [withStore, withStore, wants, wants]
    exact value_firstOpinion_withStore hrecipient htype hstored providers h

@[inherit_doc value_wants_withStore]
theorem value_firstOpinion_withStore {store store' : UserStore} {n' : Notification}
    (hrecipient : n'.recipient = n.recipient) (htype : n'.context.type = n.context.type)
    (hstored : (storedWish store' n' transport).value = (storedWish store n transport).value)
    (ps : List Provider) (h : allBuiltIn ps) :
    (firstOpinion n' transport (allWithStore store' ps)).value =
      (firstOpinion n transport (allWithStore store ps)).value :=
  match ps with
  | [] => by rw [allWithStore, allWithStore, firstOpinion, firstOpinion]
  | p :: rest => by
    have hboth : p.isBuiltIn ∧ allBuiltIn rest := by simpa [allBuiltIn] using h
    rw [allWithStore, allWithStore, value_firstOpinion_cons, value_firstOpinion_cons,
      value_wants_withStore hrecipient htype hstored p hboth.1,
      value_firstOpinion_withStore hrecipient htype hstored rest hboth.2]

end

end Herald.Provider
