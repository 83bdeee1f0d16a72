import Herald.Source

/-!
What is read from a submission. The id and the time with which an event is recorded make no difference
to its content, or to whether there is an event at all.
-/

namespace Herald

theorem Context.ofParts_of_ne {id type : String} (hid : id ≠ "") (htype : type ≠ "")
    (source : String) (subject : Option String) (time : Option Timestamp)
    (labels : Dictionary String) :
    ofParts id source type subject time labels =
      .ok ⟨id, source, type, subject, time, labels, hid, htype⟩ := by
  rw [ofParts, dif_neg hid, dif_neg htype]

theorem Hook.eventType_ne_empty (h : Hook) (event : String) : h.eventType event ≠ "" := by
  intro hempty
  have hlength := congrArg String.length hempty
  simp [eventType, toString] at hlength

namespace Source

/-- True for the sources that are not from elsewhere. -/
def isBuiltIn : Source → Bool
  | .custom _ _ _ => false
  | _ => true

/-- Both readings fail alike, both give no event, or both give an event with this content. -/
inductive SameContent : (result result' : Except ParseError (Option Event)) → Prop
  | error (e : ParseError) : SameContent (.error e) (.error e)
  | none : SameContent (.ok none) (.ok none)
  | event {e e' : Event} (h : e.content = e'.content) : SameContent (.ok (some e)) (.ok (some e'))

variable {arrival arrival' : Arrival}

/-- Built-in sources read the same from a submission whenever it arrives. -/
theorem sameContent_read {source : Source} (hsource : source.isBuiltIn) (h : arrival.id ≠ "")
    (h' : arrival'.id ≠ "") (s : Submission) :
    SameContent (source.read arrival s).value (source.read arrival' s).value := by
  cases source with
  | messages =>
    have htype : Message.eventType ≠ "" := by decide
    simp only [read, readMessage, Context.make, Context.ofParts_of_ne h htype,
      Context.ofParts_of_ne h' htype]
    cases Json.decodeBytes Message.decoder s.body with
    | error fault => exact .error _
    | ok m => exact .event rfl
  | webhook hook allowlist =>
    unfold read
    dsimp only
    cases hook.read s allowlist with
    | error refusal =>
      dsimp only
      cases refusal with
      | notAllowed event => exact .none
      | _ => exact .error _
    | ok d =>
      have htype := hook.eventType_ne_empty d.event
      simp only [ofDelivery, Context.ofParts_of_ne h htype, Context.ofParts_of_ne h' htype]
      exact .event rfl
  | custom work types check => cases hsource

end Source

end Herald
