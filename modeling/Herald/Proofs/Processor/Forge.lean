import Herald.Proofs.Identifier.Notation
import Herald.Proofs.Processor.Origin

/-!
Whom an event of a forge concerns. Everybody it concerns gets one notification, in the order in which
the payload names them; or, if one of them has no name, nobody gets any.
-/

namespace Herald

open Result

namespace Forge

/-! ### Accounts -/

/-- The identifier of an account: what names it, and where. -/
structure Names (space kind value : String) (id : Identifier) : Prop where
  space : id.key.space = some space
  kind : id.key.kind = kind
  value : id.value = value

/-- Somebody on a forge, with an address if one is given. -/
structure Addressee where
  login : String
  email : Option String
deriving DecidableEq, Repr

/-- Somebody of whom only the login is given. -/
def byLogin (login : String) : Addressee :=
  ⟨login, none⟩

/-- The recipient is this account: it has the login, the address if there is one, and nothing else. -/
structure Designates (space : String) (a : Addressee) (s : IdentifierSet) : Prop where
  login : ∃ id, s.holds id ∧ Names space Identifier.usernameKind a.login id
  email : ∀ address ∈ a.email, ∃ id, s.holds id ∧ Names space Identifier.emailKind address id
  only : ∀ id, s.holds id → Names space Identifier.usernameKind a.login id ∨
    ∃ address ∈ a.email, Names space Identifier.emailKind address id

/-- What becomes of an account with an empty name. -/
def nameless : ProcessError :=
  ⟨"forge", "payload names an invalid account", some (.invalidIdentifier .emptyValue)⟩

/-- Everybody but the nameless can be addressed. -/
inductive Found (space : String) (a : Addressee) : Except ProcessError IdentifierSet → Prop
  | nameless (h : a.login = "") : Found space a (.error nameless)
  | found {s : IdentifierSet} (h : a.login ≠ "") (hs : Designates space a s) : Found space a (.ok s)

variable {space kind value : String} {a : Addressee} {s : IdentifierSet}

theorem account_eq_ok_iff {id : Identifier} :
    account space kind value = .ok id ↔ Names space kind value id := by
  rw [account, mapError_eq_ok, Identifier.make_eq_ok_iff]
  exact ⟨fun h => ⟨h.1, h.2.1, h.2.2⟩, fun h => ⟨h.space, h.kind, h.value⟩⟩

theorem account_of_empty (hspace : Identifier.Plain space) (hkind : Identifier.Plain kind) :
    account space kind "" = .error nameless := by
  have hkey : Identifier.Key.make (some space) kind =
      .ok ⟨some space, kind, by simpa using hspace, hkind⟩ :=
    Identifier.Key.make_eq_ok_iff.mpr ⟨rfl, rfl⟩
  rw [account, Identifier.make, hkey]
  rfl

theorem exists_account (hspace : Identifier.Plain space) (hkind : Identifier.Plain kind)
    (hvalue : value ≠ "") : ∃ id, account space kind value = .ok id :=
  ⟨⟨⟨some space, kind, by simpa using hspace, hkind⟩, value, hvalue⟩,
    account_eq_ok_iff.mpr ⟨rfl, rfl, rfl⟩⟩

@[simp] theorem holds_singleton {own id : Identifier} :
    (IdentifierSet.singleton own).holds id ↔ id = own := by
  rw [IdentifierSet.holds_iff]
  exact List.mem_singleton

theorem found_person (hspace : Identifier.Plain space) (login : String) :
    Found space (byLogin login) (person space login) := by
  unfold person
  by_cases hlogin : login = ""
  · rw [hlogin, account_of_empty hspace (by decide)]
    exact .nameless rfl
  · have hkind : Identifier.Plain Identifier.usernameKind := by decide
    obtain ⟨id, hid⟩ := exists_account hspace hkind hlogin
    rw [hid]
    have hnames := account_eq_ok_iff.mp hid
    refine .found hlogin ⟨⟨id, holds_singleton.mpr rfl, hnames⟩, nofun, fun own hown => ?_⟩
    rw [holds_singleton.mp hown]
    exact .inl hnames

/-- The one who pushed, with the address unless it is empty. -/
def pushed (p : Payload.Push) : Addressee :=
  ⟨p.username, p.email.filter (· ≠ "")⟩

theorem pusher_eq (p : Payload.Push) :
    pusher p = person gitlabSpace p.username >>= fun recipient =>
      match (pushed p).email with
      | some address => recipient.insert <$> account gitlabSpace Identifier.emailKind address
      | none => .ok recipient := by
  unfold pusher pushed
  congr 1
  funext recipient
  cases p.email with
  | none => rfl
  | some email =>
    dsimp only
    split
    · rename_i hemail
      rw [hemail]
      rfl
    · rename_i hemail
      rw [Option.filter_some_pos (by simpa using hemail)]
      rfl

/-- An address of another kind than the login joins it. -/
theorem Designates.insert {address : Identifier} {email : String}
    (h : Designates space (byLogin a.login) s) (hemail : a.email = some email)
    (haddress : Names space Identifier.emailKind email address) :
    Designates space a (s.insert address) := by
  obtain ⟨own, hown, hnames⟩ := h.login
  have hkey : own.key ≠ address.key := by
    intro heq
    have hkind := hnames.kind.symm.trans ((congrArg Identifier.Key.kind heq).trans haddress.kind)
    exact absurd hkind (by decide)
  refine ⟨⟨own, ?_, hnames⟩, fun other hother => ?_, fun id hid => ?_⟩
  · rw [IdentifierSet.holds_iff] at hown ⊢
    exact Ascending.mem_insert.mpr (.inr ⟨hown, hkey⟩)
  · obtain rfl := Option.some.inj (hemail.symm.trans hother)
    exact ⟨address, IdentifierSet.holds_iff.mpr (Ascending.mem_insert.mpr (.inl rfl)), haddress⟩
  · rcases Ascending.mem_insert.mp (IdentifierSet.holds_iff.mp hid) with rfl | ⟨hold, -⟩
    · exact .inr ⟨email, hemail, haddress⟩
    · exact .inl ((h.only id (IdentifierSet.holds_iff.mpr hold)).resolve_right nofun)

theorem plain_gitlabSpace : Identifier.Plain gitlabSpace := by
  decide

theorem plain_githubSpace : Identifier.Plain githubSpace := by
  decide

theorem found_pusher (p : Payload.Push) : Found gitlabSpace (pushed p) (pusher p) := by
  rw [pusher_eq]
  generalize hperson : person gitlabSpace p.username = result
  have hfound := found_person plain_gitlabSpace p.username
  rw [hperson] at hfound
  cases hfound with
  | nameless hlogin => exact .nameless hlogin
  | @found s hlogin hs =>
    -- Only the address is left to look at, and it is never empty.
    change Found _ _ (match (pushed p).email with | some _ => _ | none => _)
    split
    · rename_i address haddress
      have hne : address ≠ "" := by
        simpa using (Option.filter_eq_some_iff.mp haddress).2
      have hkind : Identifier.Plain Identifier.emailKind := by decide
      obtain ⟨id, hid⟩ := exists_account plain_gitlabSpace hkind hne
      rw [hid]
      exact .found hlogin (Designates.insert hs haddress (account_eq_ok_iff.mp hid))
    · rename_i hnone
      refine .found hlogin ⟨hs.login, ?_, fun id hid => .inl ((hs.only id hid).resolve_right nofun)⟩
      rw [hnone]
      exact nofun

/-! ### Notifications -/

/-- The notification is about what has this context, and for this account. -/
structure Tells (c : Context) (space : String) (a : Addressee) (n : Notification) : Prop where
  context : n.context = c
  recipient : Designates space a n.recipient

/-- Everybody is told, one by one, unless somebody is nameless: then nobody is. -/
inductive Settled (c : Context) (space : String) (accounts : List Addressee) :
    Except ProcessError (List Notification) → Prop
  | refused (h : ∃ a ∈ accounts, a.login = "") : Settled c space accounts (.error nameless)
  | told {ns : List Notification} (h : ∀ a ∈ accounts, a.login ≠ "")
      (hns : List.Forall₂ (Tells c space) accounts ns) : Settled c space accounts (.ok ns)

variable {c : Context} {accounts : List Addressee}

theorem settled_nil : Settled c space [] (.ok []) :=
  .told (List.forall_mem_nil _) .nil

theorem settled_cons {x : Except ProcessError IdentifierSet} {f : IdentifierSet → Notification}
    {rest : Except ProcessError (List Notification)} (hx : Found space a x)
    (hf : ∀ s, (f s).context = c ∧ (f s).recipient = s) (hrest : Settled c space accounts rest) :
    Settled c space (a :: accounts) (do
      let s ← x
      let ns ← rest
      .ok (f s :: ns)) := by
  cases hx with
  | nameless ha => exact .refused ⟨a, List.mem_cons_self, ha⟩
  | @found s ha hs =>
    cases hrest with
    | refused h =>
      obtain ⟨b, hb, hlogin⟩ := h
      exact .refused ⟨b, List.mem_cons_of_mem a hb, hlogin⟩
    | told h hns =>
      obtain ⟨hcontext, hrecipient⟩ := hf s
      exact .told (List.forall_mem_cons.mpr ⟨ha, h⟩) (.cons ⟨hcontext, by rwa [hrecipient]⟩ hns)

theorem settled_one {x : Except ProcessError IdentifierSet} {f : IdentifierSet → Notification}
    (hx : Found space a x) (hf : ∀ s, (f s).context = c ∧ (f s).recipient = s) :
    Settled c space [a] (x >>= fun s => .ok [f s]) :=
  settled_cons hx hf settled_nil

/-- Whom a request for a review concerns: the reviewer, if there is one. -/
def asked (p : Payload.PullRequest) : List Addressee :=
  if p.action = "review_requested" then p.reviewer.toList.map byLogin else []

/-- Whom a comment concerns: the author, unless it is their own. -/
def commented (p : Payload.IssueComment) : List Addressee :=
  if p.action = "created" ∧ p.commenter ≠ p.author then [byLogin p.author] else []

/-- Whom a merge request concerns: all who are assigned, but not the one who did it. -/
def assigned (p : Payload.MergeRequest) : List Addressee :=
  (p.assignees.filter fun assignee => assignee != p.actor).map byLogin

theorem settled_review (p : Payload.PullRequest) :
    Settled c githubSpace (asked p) (reviewNotifications c p) := by
  unfold asked reviewNotifications
  cases p.reviewer with
  | none =>
    rw [Option.toList_none, List.map_nil, ite_self]
    exact settled_nil
  | some reviewer =>
    dsimp only
    split
    · refine settled_one (found_person plain_githubSpace reviewer) ?_
      exact fun _ => ⟨rfl, rfl⟩
    · exact settled_nil

theorem settled_comment (p : Payload.IssueComment) :
    Settled c githubSpace (commented p) (commentNotifications c p) := by
  unfold commented commentNotifications
  split
  · refine settled_one (found_person plain_githubSpace p.author) ?_
    exact fun _ => ⟨rfl, rfl⟩
  · exact settled_nil

theorem settled_push (p : Payload.Push) :
    Settled c gitlabSpace [pushed p] (pushNotifications c p) := by
  refine settled_one (found_pusher p) ?_
  exact fun _ => ⟨rfl, rfl⟩

theorem settled_merge (p : Payload.MergeRequest) :
    Settled c gitlabSpace (assigned p) (mergeNotifications c p) := by
  unfold assigned mergeNotifications
  -- Whether the actor is among them does not matter any more, so any list will do.
  induction p.assignees.filter fun assignee => assignee != p.actor with
  | nil => exact settled_nil
  | cons assignee rest ih =>
    rw [List.mapM_cons, List.map_cons, bind_assoc]
    refine settled_cons (found_person plain_gitlabSpace assignee) ?_ ih
    exact fun _ => ⟨rfl, rfl⟩

/-- The one who merges is assigned as well. -/
example : assigned ⟨"ada", "tools/app", 7, "Speed up", some "merge", ["ben", "ada", "cy", "ben"]⟩ =
    [byLogin "ben", byLogin "cy", byLogin "ben"] := by
  decide

/-! ### Deliveries -/

/-- The events that are looked at: what they are called where, and whose accounts they name. -/
inductive Watched : (hook event space : String) → Prop
  | review : Watched "github" "pull_request" "github.com"
  | comment : Watched "github" "issue_comment" "github.com"
  | push : Watched "gitlab" "push" "gitlab.com"
  | merge : Watched "gitlab" "merge_request" "gitlab.com"

/-- What was delivered is well formed, and concerns these accounts. -/
inductive Concerns (d : Delivery) : (space : String) → List Addressee → Prop
  | review {p : Payload.PullRequest} (hhook : d.hook = "github") (hevent : d.event = "pull_request")
      (hbody : Payload.PullRequest.ofJson? d.body = some p) : Concerns d "github.com" (asked p)
  | comment {p : Payload.IssueComment} (hhook : d.hook = "github")
      (hevent : d.event = "issue_comment") (hbody : Payload.IssueComment.ofJson? d.body = some p) :
      Concerns d "github.com" (commented p)
  | push {p : Payload.Push} (hhook : d.hook = "gitlab") (hevent : d.event = "push")
      (hbody : Payload.Push.ofJson? d.body = some p) : Concerns d "gitlab.com" [pushed p]
  | merge {p : Payload.MergeRequest} (hhook : d.hook = "gitlab") (hevent : d.event = "merge_request")
      (hbody : Payload.MergeRequest.ofJson? d.body = some p) : Concerns d "gitlab.com" (assigned p)

/-- What becomes of a delivery with the wrong body. -/
def malformed (d : Delivery) : ProcessError :=
  ⟨"forge", s!"malformed {d.hook} {d.event} payload", some .undecodable⟩

variable {d : Delivery}

theorem decode_of_some {α : Type} {read : Json → Option α} {p : α} (h : read d.body = some p) :
    decode d read = .ok p := by
  rw [decode, h]

theorem decode_of_none {α : Type} {read : Json → Option α} (h : read d.body = none) :
    decode d read = .error (malformed d) := by
  rw [decode, h]
  rfl

theorem Concerns.watched (h : Concerns d space accounts) : Watched d.hook d.event space := by
  cases h with
  | review hhook hevent => rw [hhook, hevent]; exact .review
  | comment hhook hevent => rw [hhook, hevent]; exact .comment
  | push hhook hevent => rw [hhook, hevent]; exact .push
  | merge hhook hevent => rw [hhook, hevent]; exact .merge

theorem settled_notifications (h : Concerns d space accounts) :
    Settled c space accounts (notifications c d) := by
  unfold notifications
  cases h with
  | review hhook hevent hbody =>
    rw [hhook, hevent]
    simp only [decode_of_some hbody]
    exact settled_review _
  | comment hhook hevent hbody =>
    rw [hhook, hevent]
    simp only [decode_of_some hbody]
    exact settled_comment _
  | push hhook hevent hbody =>
    rw [hhook, hevent]
    simp only [decode_of_some hbody]
    exact settled_push _
  | merge hhook hevent hbody =>
    rw [hhook, hevent]
    simp only [decode_of_some hbody]
    exact settled_merge _

theorem notifications_of_unwatched (h : ∀ space, ¬Watched d.hook d.event space) :
    notifications c d = .ok [] := by
  unfold notifications
  split
  · rename_i hhook hevent
    rw [hhook, hevent] at h
    exact absurd .review (h _)
  · rename_i hhook hevent
    rw [hhook, hevent] at h
    exact absurd .comment (h _)
  · rename_i hhook hevent
    rw [hhook, hevent] at h
    exact absurd .push (h _)
  · rename_i hhook hevent
    rw [hhook, hevent] at h
    exact absurd .merge (h _)
  · rfl

theorem notifications_of_malformed (hwatched : Watched d.hook d.event space)
    (h : ∀ accounts, ¬Concerns d space accounts) : notifications c d = .error (malformed d) := by
  -- Whichever way the body is read, a payload would concern somebody.
  have hnone : ∀ {α : Type} {read : Json → Option α} {accounts : α → List Addressee},
      (∀ p, read d.body = some p → Concerns d space (accounts p)) → read d.body = none := by
    intro α read accounts hconcerns
    exact Option.eq_none_iff_forall_ne_some.mpr fun p hp => h _ (hconcerns p hp)
  unfold notifications
  generalize hhook : d.hook = hook, hevent : d.event = event at hwatched
  cases hwatched with
  | review => simp only [decode_of_none (hnone fun p hp => .review hhook hevent hp)]; rfl
  | comment => simp only [decode_of_none (hnone fun p hp => .comment hhook hevent hp)]; rfl
  | push => simp only [decode_of_none (hnone fun p hp => .push hhook hevent hp)]; rfl
  | merge => simp only [decode_of_none (hnone fun p hp => .merge hhook hevent hp)]; rfl

/-! ### Generation -/

theorem Designates.space_eq {id : Identifier} (h : Designates space a s) (hid : s.holds id) :
    id.key.space = some space := by
  obtain hlogin | ⟨_, -, hemail⟩ := h.only id hid
  · exact hlogin.space
  · exact hemail.space

theorem exists_tells {ns : List Notification} (h : List.Forall₂ (Tells c space) accounts ns) :
    ∀ n ∈ ns, ∃ a ∈ accounts, Tells c space a n := by
  induction h with
  | nil => exact List.forall_mem_nil _
  | @cons a n accounts ns hn _ ih =>
    refine List.forall_mem_cons.mpr ⟨⟨a, List.mem_cons_self, hn⟩, fun m hm => ?_⟩
    obtain ⟨b, hb, htells⟩ := ih m hm
    exact ⟨b, List.mem_cons_of_mem a hb, htells⟩

theorem Settled.tells {ns : List Notification} (h : Settled c space accounts (.ok ns)) :
    ∀ n ∈ ns, ∃ a ∈ accounts, Tells c space a n := by
  cases h with
  | told _ hns => exact exists_tells hns

theorem Settled.fails_iff {outcome : Except ProcessError (List Notification)}
    (h : Settled c space accounts outcome) :
    (∃ failure, outcome = .error failure) ↔ ∃ a ∈ accounts, a.login = "" := by
  cases h with
  | refused h => exact ⟨fun _ => h, fun _ => ⟨_, rfl⟩⟩
  | told h =>
    constructor
    · rintro ⟨_, hfailure⟩
      cases hfailure
    · rintro ⟨a, ha, hlogin⟩
      exact absurd hlogin (h a ha)

/-- What the notifications for an event are. -/
structure Generates (e : Event) (outcome : Except ProcessError (List Notification)) : Prop where
  message : ∀ m, e.content = .message m → outcome = .ok []
  unwatched : ∀ d, e.content = .delivery d → (∀ space, ¬Watched d.hook d.event space) →
    outcome = .ok []
  undecodable : ∀ d space, e.content = .delivery d → Watched d.hook d.event space →
    (∀ accounts, ¬Concerns d space accounts) → outcome = .error (malformed d)
  concerned : ∀ d space accounts, e.content = .delivery d → Concerns d space accounts →
    Settled e.context space accounts outcome
  fails_iff : (∃ failure, outcome = .error failure) ↔
    ∃ d space, e.content = .delivery d ∧ Watched d.hook d.event space ∧
      ((∀ accounts, ¬Concerns d space accounts) ∨
        ∃ accounts, Concerns d space accounts ∧ ∃ a ∈ accounts, a.login = "")
  each : ∀ ns, outcome = .ok ns → ∀ n ∈ ns, n.context = e.context ∧ n.recipient.isEmpty = false ∧
    ∃ d space, e.content = .delivery d ∧ Watched d.hook d.event space ∧
      ∀ id, n.recipient.holds id → id.key.space = some space
  /-- Who acts on a merge request does not hear of it. -/
  actor : ∀ d p, e.content = .delivery d → d.hook = "gitlab" → d.event = "merge_request" →
    Payload.MergeRequest.ofJson? d.body = some p → ∀ ns, outcome = .ok ns →
      ∀ n ∈ ns, ∀ id, n.recipient.holds id → id.value ≠ p.actor

/-- A delivery is not looked at, or turned down, or told to those whom it concerns. -/
theorem notifications_cases (c : Context) (d : Delivery) :
    (∀ space, ¬Watched d.hook d.event space) ∧ notifications c d = .ok [] ∨
      (∃ space, Watched d.hook d.event space ∧ (∀ accounts, ¬Concerns d space accounts) ∧
        notifications c d = .error (malformed d)) ∨
      ∃ space accounts, Concerns d space accounts ∧ Settled c space accounts (notifications c d) := by
  by_cases hwatched : ∃ space, Watched d.hook d.event space
  · obtain ⟨space, hwatched⟩ := hwatched
    by_cases hconcerns : ∃ accounts, Concerns d space accounts
    · obtain ⟨accounts, hconcerns⟩ := hconcerns
      exact .inr (.inr ⟨space, accounts, hconcerns, settled_notifications hconcerns⟩)
    · have hnone := not_exists.mp hconcerns
      exact .inr (.inl ⟨space, hwatched, hnone, notifications_of_malformed hwatched hnone⟩)
  · have hnone := not_exists.mp hwatched
    exact .inl ⟨hnone, notifications_of_unwatched hnone⟩

theorem notifications_fails_iff : (∃ failure, notifications c d = .error failure) ↔
    ∃ space, Watched d.hook d.event space ∧ ((∀ accounts, ¬Concerns d space accounts) ∨
      ∃ accounts, Concerns d space accounts ∧ ∃ a ∈ accounts, a.login = "") := by
  constructor
  · rintro ⟨failure, hfailure⟩
    obtain ⟨-, hnone⟩ | ⟨space, hwatched, hmalformed, -⟩ | ⟨space, accounts, hconcerns, hsettled⟩ :=
      notifications_cases c d
    · rw [hnone] at hfailure
      cases hfailure
    · exact ⟨space, hwatched, .inl hmalformed⟩
    · have hnameless := hsettled.fails_iff.mp ⟨failure, hfailure⟩
      exact ⟨space, hconcerns.watched, .inr ⟨accounts, hconcerns, hnameless⟩⟩
  · rintro ⟨space, hwatched, hmalformed | ⟨accounts, hconcerns, hnameless⟩⟩
    · exact ⟨_, notifications_of_malformed hwatched hmalformed⟩
    · exact (settled_notifications hconcerns).fails_iff.mpr hnameless

theorem space_of_notifications {ns : List Notification} (h : notifications c d = .ok ns) :
    ∀ n ∈ ns, ∃ space, Watched d.hook d.event space ∧
      ∀ id, n.recipient.holds id → id.key.space = some space := by
  intro n hn
  obtain ⟨-, hnone⟩ | ⟨space, -, -, hmalformed⟩ | ⟨space, accounts, hconcerns, hsettled⟩ :=
    notifications_cases c d
  · rw [hnone] at h
    cases h
    cases hn
  · rw [hmalformed] at h
    cases h
  · rw [h] at hsettled
    obtain ⟨a, -, htells⟩ := hsettled.tells n hn
    exact ⟨space, hconcerns.watched, fun id hid => htells.recipient.space_eq hid⟩

/-- Nobody is addressed as the one who acted on a merge request. -/
theorem value_ne_actor {p : Payload.MergeRequest} {ns : List Notification}
    (h : Settled c space (assigned p) (.ok ns)) :
    ∀ n ∈ ns, ∀ id, n.recipient.holds id → id.value ≠ p.actor := by
  intro n hn id hid
  obtain ⟨a, ha, htells⟩ := h.tells n hn
  obtain ⟨assignee, hassignee, rfl⟩ := List.mem_map.mp ha
  have hvalue := ((htells.recipient.only id hid).resolve_right nofun).value
  rw [hvalue]
  exact bne_iff_ne.mp (List.mem_filter.mp hassignee).2

theorem generates_of_message {e : Event} {m : Message} (h : e.content = .message m) :
    Generates e (.ok []) := by
  have hnot : ∀ d, e.content ≠ .delivery d := by
    intro d hd
    cases h.symm.trans hd
  refine ⟨fun _ _ => rfl, fun _ _ _ => rfl, ?_, ?_, ?_, ?_, ?_⟩
  · exact fun d _ hd => absurd hd (hnot d)
  · exact fun d _ _ hd => absurd hd (hnot d)
  · constructor
    · rintro ⟨_, hfailure⟩
      cases hfailure
    · rintro ⟨d, _, hd, -⟩
      exact absurd hd (hnot d)
  · rintro _ ⟨⟩
    exact List.forall_mem_nil _
  · exact fun d _ hd => absurd hd (hnot d)

theorem generates_of_delivery {e : Event} (h : e.content = .delivery d) :
    Generates e (notifications e.context d) := by
  have hsame : ∀ {d'}, e.content = .delivery d' → d' = d := by
    intro d' hd'
    exact Event.Content.delivery.inj (hd'.symm.trans h)
  refine ⟨?_, ?_, ?_, ?_, ?_, ?_, ?_⟩
  · intro m hm
    cases h.symm.trans hm
  · intro d' hd' hunwatched
    cases hsame hd'
    exact notifications_of_unwatched hunwatched
  · intro d' space hd' hwatched hmalformed
    cases hsame hd'
    exact notifications_of_malformed hwatched hmalformed
  · intro d' space accounts hd' hconcerns
    cases hsame hd'
    exact settled_notifications hconcerns
  · rw [notifications_fails_iff]
    constructor
    · rintro ⟨space, hfails⟩
      exact ⟨d, space, h, hfails⟩
    · rintro ⟨d', space, hd', hfails⟩
      cases hsame hd'
      exact ⟨space, hfails⟩
  · intro ns hns n hn
    have haddresses := addresses_notifications hns n hn
    obtain ⟨space, hspace⟩ := space_of_notifications hns n hn
    exact ⟨haddresses.context, haddresses.somebody, d, space, h, hspace⟩
  · intro d' p hd' hhook hevent hbody ns hns
    cases hsame hd'
    have hsettled := settled_notifications (c := e.context) (.merge hhook hevent hbody)
    rw [hns] at hsettled
    exact value_ne_actor hsettled

/-- For everybody whom an event of a forge concerns there is one more notification, whatever there
was before and whoever is known. -/
theorem generation_tells_concerned (e : Event) :
    ∃ outcome, Generates e outcome ∧ ∀ store before,
      (Processor.forge.process store e before).value = outcome.map (before ++ ·) := by
  cases hcontent : e.content with
  | message m =>
    refine ⟨.ok [], generates_of_message hcontent, fun store before => ?_⟩
    simp [Processor.process, Processor.generateForge, hcontent, Except.map]
  | delivery d =>
    refine ⟨notifications e.context d, generates_of_delivery hcontent, fun store before => ?_⟩
    simp only [Processor.process, Processor.generateForge, hcontent]
    cases notifications e.context d <;> rfl

/-- In this body `ada` asks `bob` for a review. -/
def sampleReview : Json :=
  .object [
    ("action", .string "review_requested"),
    ("number", .int 7),
    ("pull_request", .object [("html_url", .string "https://github.com/group/app/pull/7"),
      ("number", .int 7), ("title", .string "Fix typo")]),
    ("repository", .object [("full_name", .string "group/app")]),
    ("requested_reviewer", .object [("login", .string "bob")]),
    ("sender", .object [("login", .string "ada")])]

example : Payload.PullRequest.ofJson? sampleReview = some ⟨"review_requested", 7, "Fix typo",
    "https://github.com/group/app/pull/7", "group/app", "ada", some "bob"⟩ :=
  rfl

end Forge

end Herald
