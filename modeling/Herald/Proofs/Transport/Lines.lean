import Herald.Proofs.Processor.Recipients
import Herald.Proofs.Text.Cut
import Herald.Transport.Endpoint
import Mathlib.Algebra.Order.BigOperators.Group.List
import Mathlib.Algebra.Order.Ring.Nat

/-!
The lines that a writer prints. Each push prints one text with a line break at its end; all other
breaks are those of what the notification holds, since nothing in it is escaped. So there is one line
for each push as long as nothing in the notifications breaks it.
-/

namespace Herald

/-! ### Breaks -/

/-- How often a text breaks the line. -/
def breaks (s : String) : Nat :=
  s.toList.count '\n'

@[simp] theorem breaks_append (s t : String) : breaks (s ++ t) = breaks s + breaks t := by
  rw [breaks, String.toList_append, List.count_append, breaks, breaks]

theorem breaks_intercalate {sep : String} (h : breaks sep = 0) (parts : List String) :
    breaks (sep.intercalate parts) = (parts.map breaks).sum := by
  induction parts with
  | nil => rfl
  | cons part rest ih =>
    cases rest with
    | nil => simp
    | cons next rest =>
      rw [String.intercalate_cons_cons, breaks_append, breaks_append, h, ih, Nat.add_zero]
      rfl

theorem IdentifierSet.breaks_text (s : IdentifierSet) :
    breaks s.text = ((s.toList.map Identifier.text).map breaks).sum := by
  have hopen : breaks "[" = 0 := by decide
  have hclose : breaks "]" = 0 := by decide
  rw [text, breaks_append, breaks_append, hopen, hclose, breaks_intercalate (by decide),
    Nat.zero_add, Nat.add_zero]

namespace Notification

/-- All that a line tells of a notification. -/
def fields (n : Notification) : List String :=
  n.context.id :: n.context.type :: n.render Endpoint.writerKey ::
    n.recipient.toList.map Identifier.text

/-- Nothing in the notification breaks the line. -/
def OneLine (n : Notification) : Prop :=
  ∀ s ∈ n.fields, '\n' ∉ s.toList

/-- What stands before the message. -/
def heading (n : Notification) : String :=
  s!"notification: id={n.context.id} type={n.context.type}, to={n.recipient.text}, " ++ "message="

/-- What is printed for a notification before the break at the end. -/
def entry (n : Notification) : String :=
  n.heading ++ n.render Endpoint.writerKey

variable (n : Notification)

theorem line_eq : n.line = n.entry ++ "\n" := by
  have hassoc (s t u v : String) : s ++ (t ++ u ++ v) = s ++ t ++ u ++ v := by
    simp only [String.append_assoc]
  unfold line entry heading
  exact hassoc _ _ _ _

theorem breaks_heading : breaks n.heading =
    breaks n.context.id + breaks n.context.type + breaks n.recipient.text := by
  have hid : breaks "notification: id=" = 0 := by decide
  have htype : breaks " type=" = 0 := by decide
  have hto : breaks ", to=" = 0 := by decide
  have hcomma : breaks ", " = 0 := by decide
  have hmessage : breaks "message=" = 0 := by decide
  unfold heading
  simp only [toString, breaks_append, hid, htype, hto, hcomma, hmessage, Nat.zero_add,
    Nat.add_zero]

theorem breaks_entry : breaks n.entry = (n.fields.map breaks).sum := by
  rw [entry, breaks_append, breaks_heading, IdentifierSet.breaks_text, fields]
  simp only [List.map_cons, List.sum_cons]
  ac_rfl

theorem oneLine_iff : n.OneLine ↔ breaks n.entry = 0 := by
  rw [breaks_entry, List.sum_eq_zero_iff, List.forall_mem_map]
  simp only [OneLine, breaks, List.count_eq_zero]

/-- All that is printed for notifications, one after another. -/
def printed (ns : List Notification) : List Char :=
  ns.flatMap fun n => n.line.toList

variable {n} {ns : List Notification}

theorem printed_eq (ns : List Notification) :
    printed ns = (ns.map fun n => n.entry.toList).flatMap (· ++ ['\n']) := by
  rw [printed, List.flatMap_map]
  simp only [line_eq, String.toList_append]
  rfl

theorem count_printed (ns : List Notification) :
    (printed ns).count '\n' = ns.length + (ns.map fun n => breaks n.entry).sum := by
  induction ns with
  | nil => rfl
  | cons n rest ih =>
    have hline : n.line.toList.count '\n' = breaks n.entry + 1 := by
      rw [line_eq]
      exact breaks_append n.entry "\n"
    rw [printed, List.flatMap_cons, List.count_append, hline, ← printed, ih, List.map_cons,
      List.sum_cons, List.length_cons]
    omega

theorem count_printed_eq_iff :
    (printed ns).count '\n' = ns.length ↔ ∀ n ∈ ns, n.OneLine := by
  rw [count_printed, Nat.add_eq_left, List.sum_eq_zero_iff, List.forall_mem_map]
  simp only [oneLine_iff]

theorem split_printed_append {first : List Notification} (h : ∀ n ∈ first, n.OneLine)
    (rest : List Notification) : Text.split '\n' (printed (first ++ rest)) =
      (first.map fun n => n.entry.toList) ++ Text.split '\n' (printed rest) := by
  rw [printed, List.flatMap_append, ← printed, ← printed, printed_eq first]
  refine Text.split_flatMap_append (List.forall_mem_map.mpr fun n hn => ?_) _
  exact List.count_eq_zero.mp ((oneLine_iff n).mp (h n hn))

theorem split_printed_iff : Text.split '\n' (printed ns) =
    (ns.map fun n => n.entry.toList) ++ [[]] ↔ ∀ n ∈ ns, n.OneLine := by
  constructor
  · intro hsplit
    have hlength := congrArg List.length hsplit
    rw [Text.length_split, List.length_append, List.length_map] at hlength
    exact count_printed_eq_iff.mp (Nat.succ_injective hlength)
  · intro h
    have hsplit := split_printed_append h []
    rwa [List.append_nil] at hsplit

/-- The notification with a message that goes on like the entry of another one. -/
def forge (n m : Notification) : Notification :=
  ⟨n.context, n.recipient, n.render Endpoint.writerKey ++ "\n" ++ m.entry, ∅, n.options⟩

theorem line_forge (n m : Notification) : (n.forge m).line = n.line ++ m.line := by
  have hassoc (s t u v : String) : s ++ (t ++ u ++ v) ++ u = s ++ t ++ u ++ (v ++ u) := by
    simp only [String.append_assoc]
  rw [line_eq, line_eq, line_eq m]
  exact hassoc n.heading _ _ _

/-- Whatever is printed for two notifications, one alone can be printed like this. -/
theorem printed_forge (n m : Notification) : printed [n.forge m] = printed [n, m] := by
  rw [printed, List.flatMap_singleton, line_forge, String.toList_append, printed,
    List.flatMap_cons, List.flatMap_singleton]

end Notification

/-! ### Pushes -/

def Sighting.printed : Sighting → List Char
  | .wrote _ line => line.toList
  | _ => []

/-- All that was printed so far. -/
def Timeline.output (tl : Timeline) : List Char :=
  tl.sightings.flatMap Sighting.printed

/-- A notification that is pushed, with the token of the push and its deadline. -/
structure Endpoint.Call where
  notification : Notification
  token : Token
  deadline : Option Nat

namespace Endpoint

/-- Pushes notifications one after another. -/
def pushEach : List Call → Endpoint × Timeline →
    List (Option (Except PushError Unit)) × Endpoint × Timeline
  | [], state => ([], state)
  | call :: rest, state =>
    let (result, state) := push call.notification call.token call.deadline state
    let (results, state) := pushEach rest state
    (result :: results, state)

theorem push_writer (call : Call) (tl : Timeline) :
    push call.notification call.token call.deadline (.writer none, tl) =
      (some (.ok ()), .writer none, tl.see (.wrote writerKey call.notification.line)) :=
  rfl

@[simp] theorem output_see_wrote (tl : Timeline) (transport line : String) :
    (tl.see (.wrote transport line)).output = tl.output ++ line.toList := by
  rw [Timeline.output, Timeline.see, List.flatMap_append, List.flatMap_singleton]
  rfl

/-- Every push succeeds, and prints its line after those of the pushes before. -/
theorem pushEach_writer (calls : List Call) (tl : Timeline) :
    ∃ tl', pushEach calls (.writer none, tl) =
        (calls.map fun _ => some (.ok ()), .writer none, tl') ∧
      tl'.output = tl.output ++ Notification.printed (calls.map Call.notification) := by
  induction calls generalizing tl with
  | nil => exact ⟨tl, rfl, (List.append_nil _).symm⟩
  | cons call rest ih =>
    obtain ⟨tl', hpush, houtput⟩ := ih (tl.see (.wrote writerKey call.notification.line))
    refine ⟨tl', ?_, ?_⟩
    · rw [pushEach, push_writer]
      dsimp only
      rw [hpush]
      rfl
    · rw [houtput, output_see_wrote, List.append_assoc, List.map_cons, Notification.printed,
        Notification.printed, List.flatMap_cons]

/-- What is printed for notifications, and which of its line breaks end an entry. -/
structure Prints (ns : List Notification) (out : List Char) : Prop where
  /-- The entries, each with a line break at its end. -/
  entries : out = (ns.map fun n => n.entry.toList).flatMap (· ++ ['\n'])
  /-- There are more line breaks only where what is told of a notification holds some. -/
  count : out.count '\n' = ns.length + (ns.map fun n => (n.fields.map breaks).sum).sum
  count_iff : out.count '\n' = ns.length ↔ ∀ n ∈ ns, n.OneLine
  lines_iff : Text.split '\n' out = (ns.map fun n => n.entry.toList) ++ [[]] ↔ ∀ n ∈ ns, n.OneLine
  /-- Up to the first notification that breaks its line, each line is the entry of one. -/
  leading : ∀ first rest, ns = first ++ rest → (∀ n ∈ first, n.OneLine) →
    (first.map fun n => n.entry.toList) <+: Text.split '\n' out

theorem prints_printed (ns : List Notification) : Prints ns (Notification.printed ns) where
  entries := Notification.printed_eq ns
  count := by simp only [Notification.count_printed, Notification.breaks_entry]
  count_iff := Notification.count_printed_eq_iff
  lines_iff := Notification.split_printed_iff
  leading := by
    rintro first rest rfl h
    rw [Notification.split_printed_append h]
    exact List.prefix_append _ _

/-- A writer that works takes every push and prints one entry for it, with a line break at its end.
So there are as many lines as pushes, and each is the entry of its push, just if nothing that they
tell of breaks a line. -/
theorem writer_prints_entries (calls : List Call) (tl : Timeline) :
    ∃ tl' out, pushEach calls (.writer none, tl) =
        (calls.map fun _ => some (.ok ()), .writer none, tl') ∧
      tl'.output = tl.output ++ out ∧ Prints (calls.map Call.notification) out := by
  obtain ⟨tl', hpush, houtput⟩ := pushEach_writer calls tl
  exact ⟨tl', _, hpush, houtput, prints_printed _⟩

/-- A notification with this message, for nobody. -/
def sampleNote (message : String) : Notification :=
  (Notification.about Processor.sampleEvent.context).withMessage message

/-- The message goes on like another notification. -/
def forgedNote : Notification :=
  sampleNote "hi\nnotification: id=1 type=com.example.message_sent, to=[], message=bye"

theorem forgedNote_eq : forgedNote = (sampleNote "hi").forge (sampleNote "bye") := by
  have hmessage : forgedNote.message = ((sampleNote "hi").forge (sampleNote "bye")).message := by
    decide +kernel
  exact congrArg (sampleNote "").withMessage hmessage

/-- One push can print what two do, and so two lines. -/
theorem writer_prints_forged_entry :
    (pushEach [⟨forgedNote, .delivery, none⟩] (.writer none, .start none)).2.2.output =
        (pushEach [⟨sampleNote "hi", .delivery, none⟩, ⟨sampleNote "bye", .delivery, none⟩]
          (.writer none, .start none)).2.2.output ∧
      (pushEach [⟨forgedNote, .delivery, none⟩] (.writer none, .start none)).2.2.output.count '\n' =
        2 := by
  have hsame : Notification.printed [forgedNote] =
      Notification.printed [sampleNote "hi", sampleNote "bye"] := by
    rw [forgedNote_eq, Notification.printed_forge]
  refine ⟨hsame, ?_⟩
  change (Notification.printed [forgedNote]).count '\n' = 2
  rw [hsame, Notification.count_printed]
  simp only [Notification.breaks_entry]
  decide

end Endpoint

end Herald
