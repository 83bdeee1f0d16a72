import Herald.Proofs.Processor.Forge
import Herald.Proofs.Processor.Recipients
import Herald.Proofs.Text.Cut

/-!
What a push is told about. The message names the branch by what is left of the reference without any
`refs/heads/` in front of it, however often this stands there. So a branch is named as it is, and told
from all others, unless its own name begins like this.
-/

namespace Herald.Forge

/-- What stands before the name of a branch in a reference. -/
def heads : String := "refs/heads/"

/-- The name of the branch begins as references do. -/
def LikeReference (b : String) : Prop :=
  heads.toList <+: b.toList

instance (b : String) : Decidable (LikeReference b) :=
  inferInstanceAs (Decidable (heads.toList <+: b.toList))

/-- What is left of a name without any `refs/heads/` in front. -/
inductive Bare : String → String → Prop
  | plain {b : String} (h : ¬LikeReference b) : Bare b b
  | under {b rest : String} (h : Bare b rest) : Bare (heads ++ b) rest

/-- What happened is that somebody with a name pushed to the branch `b`. -/
structure PushTo (e : Event) (p : Payload.Push) (b : String) : Prop where
  delivered : ∃ d, e.content = .delivery d ∧ d.hook = "gitlab" ∧ d.event = "push" ∧
    Payload.Push.ofJson? d.body = some p
  username : p.username ≠ ""
  ref : p.ref = heads ++ b

/-- The message about a push to a branch with this name. -/
def pushText (p : Payload.Push) (name : String) : String :=
  s!"You pushed {p.commits} commit(s) to {p.project} ({name})"

/-- The only notification that there is for the event. -/
def Gives (e : Event) (n : Notification) : Prop :=
  ∀ store before, (Processor.forge.process store e before).value = .ok (before ++ [n])

/-- The notification names the branch without what references begin with. -/
structure NamesBranch (p : Payload.Push) (b : String) (n : Notification) : Prop where
  text : ∃ rest, Bare b rest ∧ n.message = pushText p rest
  exact_iff : n.message = pushText p b ↔ ¬LikeReference b
  /-- On every transport the message is this one. -/
  render : ∀ transport, n.render transport = n.message

variable {e : Event} {p : Payload.Push} {b rest : String}

theorem branch_eq (ref : String) :
    branch ref = String.ofList (Text.dropRepeated heads.toList ref.toList) :=
  rfl

theorem branch_heads_append (b : String) : branch (heads ++ b) = branch b := by
  rw [branch_eq, String.toList_append, Text.dropRepeated_append (by decide), ← branch_eq]

theorem branch_of_not_likeReference (h : ¬LikeReference b) : branch b = b := by
  rw [branch_eq, Text.dropRepeated_of_not_prefix h, String.ofList_toList]

theorem Bare.branch_eq (h : Bare b rest) : branch b = rest := by
  induction h with
  | plain h => exact branch_of_not_likeReference h
  | under _ ih => rw [branch_heads_append, ih]

theorem bare_dropRepeated (s : List Char) :
    Bare (String.ofList s) (String.ofList (Text.dropRepeated heads.toList s)) := by
  fun_induction Text.dropRepeated heads.toList s with
  | case1 s h _ ih =>
    obtain ⟨rest, rfl⟩ := h.2
    rw [List.drop_left] at ih ⊢
    rw [String.ofList_append, String.ofList_toList]
    exact .under ih
  | case2 s h =>
    refine .plain fun hlike => h ⟨by decide, ?_⟩
    rwa [LikeReference, String.toList_ofList] at hlike

theorem bare_iff : Bare b rest ↔ branch b = rest := by
  refine ⟨Bare.branch_eq, ?_⟩
  rintro rfl
  have hbare := bare_dropRepeated b.toList
  rwa [String.ofList_toList, ← branch_eq] at hbare

theorem Bare.not_likeReference (h : Bare b rest) : ¬LikeReference rest := by
  induction h with
  | plain h => exact h
  | under _ ih => exact ih

theorem Bare.eq_iff (h : Bare b rest) : rest = b ↔ ¬LikeReference b := by
  constructor
  · rintro rfl
    exact h.not_likeReference
  · intro hplain
    rw [← h.branch_eq, branch_of_not_likeReference hplain]

theorem pushText_inj {p' : Payload.Push} (hproject : p'.project = p.project)
    (hcommits : p'.commits = p.commits) {name name' : String} :
    pushText p' name' = pushText p name ↔ name' = name := by
  rw [pushText, pushText, hproject, hcommits]
  simp only [String.append_left_inj, String.append_right_inj]
  exact Iff.rfl

theorem pushNotifications_of_pusher {recipient : IdentifierSet} (h : pusher p = .ok recipient)
    (c : Context) : pushNotifications c p = .ok
      [((Notification.about c).withRecipient recipient).withMessage (pushText p (branch p.ref))] := by
  rw [pushNotifications, h]
  rfl

theorem exists_pusher (h : p.username ≠ "") : ∃ recipient, pusher p = .ok recipient := by
  have hfound := found_pusher p
  generalize hpusher : pusher p = result at hfound
  cases hfound with
  | nameless hempty => exact absurd hempty h
  | found => exact ⟨_, rfl⟩

theorem exists_notification (h : PushTo e p b) :
    ∃ n, Gives e n ∧ n.messages = ∅ ∧ n.message = pushText p (branch b) := by
  obtain ⟨d, hd, hhook, hevent, hbody⟩ := h.delivered
  obtain ⟨recipient, hpusher⟩ := exists_pusher h.username
  have hmade : notifications e.context d = pushNotifications e.context p := by
    simp only [notifications, hhook, hevent, decode_of_some hbody]
    rfl
  rw [pushNotifications_of_pusher hpusher, h.ref, branch_heads_append] at hmade
  refine ⟨((Notification.about e.context).withRecipient recipient).withMessage
    (pushText p (branch b)), fun store before => ?_, rfl, rfl⟩
  rw [Processor.process, Processor.generateForge, hd]
  dsimp only
  rw [hmade]
  rfl

theorem Gives.unique {n n' : Notification} (h : Gives e n) (h' : Gives e n') : n' = n := by
  have hsame := (h' (.ofUsers []) []).symm.trans (h (.ofUsers []) [])
  exact List.singleton_inj.mp (Except.ok.inj hsame)

theorem message_of_gives {n : Notification} (h : PushTo e p b) (hn : Gives e n) :
    n.message = pushText p (branch b) := by
  obtain ⟨_, hgives, -, hmessage⟩ := exists_notification h
  rwa [hgives.unique hn]

/-- A push is told with the branch, but without any `refs/heads/` in front of its name. So the name is
exact unless the branch is called like a reference, and two pushes that differ in their branches alone
are told alike just if the branches differ in this only. -/
theorem push_names_bare_branch (h : PushTo e p b) :
    ∃ n, Gives e n ∧ NamesBranch p b n ∧
      ∀ {e' p' b' n'}, PushTo e' p' b' → Gives e' n' → p'.project = p.project →
        p'.commits = p.commits →
        (n'.message = n.message ↔ ∃ rest, Bare b rest ∧ Bare b' rest) ∧
        (¬LikeReference b → ¬LikeReference b' → b' ≠ b → n'.message ≠ n.message) := by
  obtain ⟨n, hn, hmessages, hmessage⟩ := exists_notification h
  have hbare : Bare b (branch b) := bare_iff.mpr rfl
  refine ⟨n, hn, ⟨⟨_, hbare, hmessage⟩, ?_, fun _ => ?_⟩, ?_⟩
  · rw [hmessage, pushText_inj rfl rfl, hbare.eq_iff]
  · rw [Notification.render, hmessages]
    rfl
  · intro e' p' b' n' h' hn' hproject hcommits
    have hsame : n'.message = n.message ↔ branch b' = branch b := by
      rw [message_of_gives h' hn', hmessage, pushText_inj hproject hcommits]
    refine ⟨hsame.trans ?_, fun hplain hplain' hne heq => ?_⟩
    · simp only [bare_iff, exists_eq_left']
    · have hbranch := hsame.mp heq
      rw [branch_of_not_likeReference hplain, branch_of_not_likeReference hplain'] at hbranch
      exact hne hbranch

/-- A push to a branch of this name, as it is delivered. -/
def samplePushEvent (b : String) : Event :=
  { Processor.sampleEvent with content := .delivery ⟨"gitlab", "push", none, none, .object [
      ("project", .object [("path_with_namespace", .string "group/app")]),
      ("ref", .string (heads ++ b)),
      ("total_commits_count", .int 2),
      ("user_username", .string "jsmith")]⟩ }

/-- The same push, as it is read. -/
def samplePush (b : String) : Payload.Push :=
  ⟨heads ++ b, "jsmith", none, 2, "group/app"⟩

theorem samplePush_to (b : String) : PushTo (samplePushEvent b) (samplePush b) b :=
  ⟨⟨_, rfl, rfl, rfl, rfl⟩, by simp [samplePush], rfl⟩

theorem push_names_bare_branch_sample :
    PushTo (samplePushEvent "main") (samplePush "main") "main" ∧
      ∃ n, Gives (samplePushEvent "main") n ∧ n.message = pushText (samplePush "main") "main" ∧
        ∀ n', Gives (samplePushEvent "topic") n' → n'.message ≠ n.message := by
  have hmain : ¬LikeReference "main" := by decide
  obtain ⟨n, hn, hnames, hother⟩ := push_names_bare_branch (samplePush_to "main")
  refine ⟨samplePush_to "main", n, hn, hnames.exact_iff.mpr hmain, fun n' hn' => ?_⟩
  exact (hother (samplePush_to "topic") hn' rfl rfl).2 hmain (by decide) (by decide)

/-- A branch that is called like the reference of another is told as that other. -/
theorem push_confuses_branches :
    PushTo (samplePushEvent "main") (samplePush "main") "main" ∧
      PushTo (samplePushEvent "refs/heads/main") (samplePush "refs/heads/main")
        "refs/heads/main" ∧
      ∃ n n', Gives (samplePushEvent "main") n ∧ Gives (samplePushEvent "refs/heads/main") n' ∧
        n'.message = "You pushed 2 commit(s) to group/app (main)" ∧ n'.message = n.message ∧
        n'.message ≠ pushText (samplePush "refs/heads/main") "refs/heads/main" := by
  have hmain : Bare "main" "main" := .plain (by decide)
  have hunder : Bare "refs/heads/main" "main" := .under hmain
  obtain ⟨n, hn, -, hmessage⟩ := exists_notification (samplePush_to "main")
  obtain ⟨n', hn', -, hmessage'⟩ := exists_notification (samplePush_to "refs/heads/main")
  rw [hmain.branch_eq] at hmessage
  rw [hunder.branch_eq] at hmessage'
  refine ⟨samplePush_to _, samplePush_to _, n, n', hn, hn', ?_, ?_, ?_⟩
  · rw [hmessage']
    rfl
  · rw [hmessage', hmessage]
    rfl
  · rw [hmessage']
    decide

end Herald.Forge
