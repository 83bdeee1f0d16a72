import Herald.Dispatch
import Herald.Proofs.Transport.Basic

/-!
The turns of a dispatch. Every transport has its turn once and in order, unless one before it waits for
ever; what it is left to do is up to the preferences, and to the token at the time of the turn.
-/

namespace Herald

/-- Whose turn it was, and with which notification. -/
def Turn.pair (turn : Turn) : Notification × String :=
  (turn.notification, turn.transport)

/-- What was done in the turn is what the preferences say, unless the delivery was called off. -/
structure Turn.Heeds (turn : Turn) (preferences : Provider) : Prop where
  declined : turn.fate = .declined →
    (preferences.wants turn.notification turn.transport).value = some false
  given : turn.fate = .given →
    (preferences.wants turn.notification turn.transport).value ≠ some false

theorem Turn.Heeds.given_iff {turn : Turn} {preferences : Provider} (h : turn.Heeds preferences)
    (hfate : turn.fate ≠ .calledOff) :
    turn.fate = .given ↔
      (preferences.wants turn.notification turn.transport).value ≠ some false := by
  refine ⟨h.given, fun hwants => ?_⟩
  cases hturn : turn.fate with
  | given => rfl
  | calledOff => exact absurd hturn hfate
  | declined => exact absurd (h.declined hturn) hwants

namespace Timeline

/-- From `tl` to `tl'` the pairs have these turns, in order. If the work does not come to its end, the
last of these turns is the one in which it waits for ever. -/
structure HasTurns (pairs : List (Notification × String)) (ended : Bool) (turns : List Turn)
    (tl tl' : Timeline) : Prop where
  turns_eq : tl'.turns = tl.turns ++ turns
  order : turns.map Turn.pair <+: pairs
  complete : ended = true → turns.map Turn.pair = pairs
  waits : ended = false → ∃ turn, turns.getLast? = some turn ∧ turn.fate = .given

/-- The pairs have these turns under a token, and in each of them preferences and token are heeded. -/
structure Dispatches (preferences : Provider) (token : Token) (pairs : List (Notification × String))
    (ended : Bool) (turns : List Turn) (tl tl' : Timeline) : Prop extends
    Follows token tl tl', HasTurns pairs ended turns tl tl' where
  heeds : ∀ turn ∈ turns, turn.Heeds preferences
  calledOff : ∀ turn ∈ turns, turn.fate = .calledOff → tl'.isCancelled token

variable {preferences : Provider} {token : Token} {pairs more : List (Notification × String)}
  {ended : Bool} {turns later : List Turn} {tl tl' tl'' : Timeline}

theorem HasTurns.pair_mem (h : HasTurns pairs ended turns tl tl') {turn : Turn}
    (hturn : turn ∈ turns) : turn.pair ∈ pairs :=
  h.order.subset (List.mem_map_of_mem hturn)

namespace Dispatches

theorem of_passes (h : Passes token tl tl') : Dispatches preferences token [] true [] tl tl' where
  toFollows := h.toFollows
  turns_eq := by simp [h.turns]
  order := List.prefix_refl _
  complete _ := rfl
  heeds := by simp
  calledOff := by simp
  waits := nofun

/-- Work that was done is followed by more. -/
theorem append (h : Dispatches preferences token pairs true turns tl tl')
    (h' : Dispatches preferences token more ended later tl' tl'') :
    Dispatches preferences token (pairs ++ more) ended (turns ++ later) tl tl'' where
  toFollows := h.toFollows.trans h'.toFollows
  turns_eq := by rw [h'.turns_eq, h.turns_eq, List.append_assoc]
  order := by
    rw [List.map_append, h.complete rfl]
    exact (List.prefix_append_right_inj pairs).mpr h'.order
  complete hended := by rw [List.map_append, h.complete rfl, h'.complete hended]
  heeds turn hturn := by
    obtain hturn | hturn := List.mem_append.mp hturn
    · exact h.heeds turn hturn
    · exact h'.heeds turn hturn
  calledOff turn hturn hfate := by
    obtain hturn | hturn := List.mem_append.mp hturn
    · exact h'.toFollows.isCancelled (h.calledOff turn hturn hfate)
    · exact h'.calledOff turn hturn hfate
  waits hended := by
    obtain ⟨turn, hlast, hgiven⟩ := h'.waits hended
    exact ⟨turn, by rw [List.getLast?_append, hlast, Option.some_or], hgiven⟩

/-- Work that does not end leaves what comes after it undone. -/
theorem unended (h : Dispatches preferences token pairs false turns tl tl')
    (more : List (Notification × String)) :
    Dispatches preferences token (pairs ++ more) false turns tl tl' where
  toFollows := h.toFollows
  turns_eq := h.turns_eq
  order := h.order.trans (List.prefix_append pairs more)
  complete := nofun
  heeds := h.heeds
  calledOff := h.calledOff
  waits := h.waits

theorem before (h : Passes token tl tl')
    (h' : Dispatches preferences token pairs ended turns tl' tl'') :
    Dispatches preferences token pairs ended turns tl tl'' :=
  (of_passes h).append h'

theorem after (h : Dispatches preferences token pairs ended turns tl tl')
    (h' : Passes token tl' tl'') : Dispatches preferences token pairs ended turns tl tl'' where
  toFollows := h.toFollows.trans h'.toFollows
  turns_eq := h'.turns.trans h.turns_eq
  order := h.order
  complete := h.complete
  heeds := h.heeds
  calledOff turn hturn hfate := h'.toFollows.isCancelled (h.calledOff turn hturn hfate)
  waits := h.waits

/-- A transport that is given a notification may keep it for ever. -/
theorem endless (h : Dispatches preferences token pairs ended turns tl tl') {turn : Turn}
    (hlast : turns.getLast? = some turn) (hgiven : turn.fate = .given) :
    Dispatches preferences token pairs false turns tl tl' where
  toFollows := h.toFollows
  turns_eq := h.turns_eq
  order := h.order
  complete := nofun
  heeds := h.heeds
  calledOff := h.calledOff
  waits _ := ⟨turn, hlast, hgiven⟩

/-- One turn. -/
theorem note (turn : Turn) (hheeds : turn.Heeds preferences)
    (hcancelled : turn.fate = .calledOff → tl.isCancelled token) :
    Dispatches preferences token [turn.pair] true [turn] tl (tl.note turn) where
  toFollows := ⟨Nat.le_refl _, fun _ h => h, rfl, fun _ h => .inl h⟩
  turns_eq := rfl
  order := List.prefix_refl _
  complete _ := rfl
  heeds _ ht := List.mem_singleton.mp ht ▸ hheeds
  calledOff _ ht hfate := hcancelled (List.mem_singleton.mp ht ▸ hfate)
  waits := nofun

end Dispatches

end Timeline

namespace Notifier

open Timeline

/-- One transport has its turn and keeps its key. -/
theorem dispatches_offer (preferences : Provider) (n : Notification) (token : Token) (t : Transport)
    (tl : Timeline) :
    (offer preferences n token (t, tl)).2.1.key = t.key ∧
      ∃ turns, Dispatches preferences token [(n, t.key)]
        (offer preferences n token (t, tl)).1.isSome turns tl
        (offer preferences n token (t, tl)).2.2 := by
  unfold offer
  dsimp only
  split
  · rename_i hcancelled
    exact ⟨rfl, _, .note ⟨n, t.key, .calledOff⟩ ⟨nofun, nofun⟩ fun _ => hcancelled⟩
  · have hsettle : Passes token tl (if preferences.waits n t.key then tl.settle else tl) := by
      split
      · exact passes_settle token tl
      · exact .refl token tl
    have hhear := hsettle.trans (passes_hear token _ (preferences.wants n t.key))
    split
    · rename_i hdeclined
      have hturn := Dispatches.before hhear
        (.note ⟨n, t.key, .declined⟩ ⟨fun _ => hdeclined, nofun⟩ nofun)
      exact ⟨rfl, _, hturn.after (passes_report token _ _ _ _)⟩
    · rename_i hwanted
      have hturn := Dispatches.before hhear
        (.note ⟨n, t.key, .given⟩ ⟨nofun, fun _ => hwanted⟩ nofun)
      split
      · rename_i heq
        obtain ⟨hkey, hpush⟩ := (Transport.keeps_push n token).of_eq heq
        exact ⟨hkey, _, hturn.after hpush⟩
      · rename_i heq
        obtain ⟨hkey, hpush⟩ := (Transport.keeps_push n token).of_eq heq
        exact ⟨hkey, _, (hturn.after hpush).endless rfl rfl⟩

/-- The transports have their turns one after another. -/
theorem dispatches_offers (preferences : Provider) (n : Notification) (token : Token)
    (ts : List Transport) (tl : Timeline) :
    (offers preferences n token ts tl).2.1.map Transport.key = ts.map Transport.key ∧
      ∃ turns, Dispatches preferences token ((ts.map Transport.key).map (Prod.mk n))
        (offers preferences n token ts tl).1.isSome turns tl
        (offers preferences n token ts tl).2.2 := by
  induction ts generalizing tl with
  | nil => exact ⟨rfl, [], .of_passes (.refl token tl)⟩
  | cons t rest ih =>
    obtain ⟨hkey, turns, hfirst⟩ := dispatches_offer preferences n token t tl
    unfold offers
    split
    · rename_i t' tl' heq
      rw [heq] at hkey hfirst
      exact ⟨congrArg (· :: rest.map Transport.key) hkey, turns, hfirst.unended _⟩
    · rename_i first t' tl' heq
      rw [heq] at hkey hfirst
      obtain ⟨hkeys, later, hrest⟩ := ih tl'
      refine ⟨?_, turns ++ later, ?_⟩
      · rw [List.map_cons, List.map_cons, ← hkey, ← hkeys]
      · rw [Option.isSome_map]
        exact hfirst.append hrest

/-- A dispatch gives every transport its turn and changes neither keys nor preferences. -/
theorem dispatches_push (n : Notification) (token : Token) (notifier : Notifier) (tl : Timeline) :
    (push n token (notifier, tl)).2.1.preferences = notifier.preferences ∧
      (push n token (notifier, tl)).2.1.transports.map Transport.key =
        notifier.transports.map Transport.key ∧
      ∃ turns, Dispatches notifier.preferences token
        ((notifier.transports.map Transport.key).map (Prod.mk n))
        (push n token (notifier, tl)).1.isSome turns tl (push n token (notifier, tl)).2.2 := by
  obtain ⟨hkeys, turns, hoffers⟩ :=
    dispatches_offers notifier.preferences n token notifier.transports tl
  unfold push
  dsimp only
  split
  · rename_i heq
    rw [heq] at hkeys hoffers
    exact ⟨rfl, hkeys, turns, hoffers⟩
  · rename_i heq
    rw [heq] at hkeys hoffers
    refine ⟨rfl, hkeys, turns, ?_⟩
    dsimp only
    split
    · exact hoffers.after (passes_report token _ _ _ _)
    · exact hoffers

/-- A dispatch leaves the preferences and the keys of the transports, and what was cancelled. -/
theorem kept_of_push {n : Notification} {token : Token} {notifier notifier' : Notifier}
    {tl tl' : Timeline} {result : Option (Except DispatchError Unit)}
    (h : push n token (notifier, tl) = (result, notifier', tl')) :
    notifier'.preferences = notifier.preferences ∧
      notifier'.transports.map Transport.key = notifier.transports.map Transport.key ∧
      (tl.isCancelled token → tl'.isCancelled token) := by
  obtain ⟨hpreferences, hkeys, _, hturns⟩ := dispatches_push n token notifier tl
  rw [h] at hpreferences hkeys hturns
  exact ⟨hpreferences, hkeys, hturns.toFollows.isCancelled⟩

end Notifier

end Herald
