import Herald.Event.Codec
import Herald.Proofs.Json.Decoding
import Herald.Proofs.Timestamp
import Mathlib.Tactic.MkIffOfInductiveProp

/-!
What JSON keeps of contexts, and what it can bring in. A context is read exactly from parts that pass the
checks of building one, and every context that can be built reads back from what is written of it.
-/

namespace Herald.Context

open Result

/-! ### Reading -/

namespace Draft

/-- What the fields are given has been put into the slots of a draft. -/
@[mk_iff]
structure Fill (d d' : Draft) (given : String → List Json.Tree) : Prop where
  id : Json.Fills Json.Decoder.string d.id d'.id (given "id")
  source : Json.Fills Json.Decoder.string d.source d'.source (given "source")
  type : Json.Fills Json.Decoder.string d.type d'.type (given "type")
  subject : Json.Fills (Json.Decoder.optional Json.Decoder.string) d.subject d'.subject
    (given "subject")
  time : Json.Fills (Json.Decoder.optional timeDecoder) d.time d'.time (given "time")
  labels : Json.Fills (Json.Decoder.dictionary Json.Decoder.string) d.labels d'.labels
    (given "labels")

theorem tells_fill : record.Tells Fill where
  done d d' := by
    cases d
    cases d'
    simp only [fill_iff, Json.fills_nil, Draft.mk.injEq]
  next d d' name value given := by
    change _ ∧ (name ∉ ["id", "source", "type", "subject", "time", "labels"] → _) ↔
      ∃ next, d.assign name value = .ok next ∧ _
    unfold Draft.assign
    split
    case h_7 hid hsource htype hsubject htime hlabels =>
      have hid : ¬name = "id" := hid
      have hsource : ¬name = "source" := hsource
      have htype : ¬name = "type" := htype
      have hsubject : ¬name = "subject" := hsubject
      have htime : ¬name = "time" := htime
      have hlabels : ¬name = "labels" := hlabels
      simp only [exists_bind_ok_iff, Json.Decoder.skip_eq_ok_iff, exists_const, fill_iff]
      simp [hid, hsource, htype, hsubject, htime, hlabels, and_comm]
    all_goals
      simp only [exists_bind_ok_iff, Json.exists_once_iff, fill_iff, Json.fills_cons,
        Json.fills_some, String.reduceEq, ↓reduceIte, List.mem_cons, true_or, or_true,
        not_true_eq_false, false_implies, and_true]
      grind

end Draft

/-- The parts of a context, which may not have passed the checks. -/
structure Parts where
  id : String
  source : String
  type : String
  subject : Option String
  time : Option Timestamp
  labels : Dictionary String

def parts (c : Context) : Parts :=
  ⟨c.id, c.source, c.type, c.subject, c.time, c.labels⟩

namespace Parts

/-- These parts stand in the tree: each of the first three once, each of the others at most once, and all
can be read. Whatever else an object holds follows the grammar. -/
structure DrawnFrom (p : Parts) (t : Json.Tree) : Prop where
  fits : record.Fits t
  id : Json.Gives Json.Decoder.string (record.given "id" t) p.id
  source : Json.Gives Json.Decoder.string (record.given "source" t) p.source
  type : Json.Gives Json.Decoder.string (record.given "type" t) p.type
  subject : Json.GivesOr none (Json.Decoder.optional Json.Decoder.string)
    (record.given "subject" t) p.subject
  time : Json.GivesOr none (Json.Decoder.optional timeDecoder) (record.given "time" t) p.time
  labels : Json.GivesOr ∅ (Json.Decoder.dictionary Json.Decoder.string)
    (record.given "labels" t) p.labels

/-- The draft has all the parts. -/
def Complete (p : Parts) (d : Draft) : Prop :=
  d.id = some p.id ∧ d.source = some p.source ∧ d.type = some p.type ∧
    d.subject.join = p.subject ∧ d.time.join = p.time ∧ d.labels.getD ∅ = p.labels

theorem getD_none_eq_join {α : Type} (o : Option (Option α)) : o.getD none = o.join := by
  cases o <;> rfl

theorem drawnFrom_iff {p : Parts} {t : Json.Tree} :
    p.DrawnFrom t ↔ ∃ d, record.read {} t = .ok d ∧ p.Complete d := by
  simp only [Draft.tells_fill.read_eq_ok_iff]
  constructor
  · rintro ⟨hfits, hid, hsource, htype, hsubject, htime, hlabels⟩
    obtain ⟨subject, hsubject⟩ := Json.givesOr_iff.mp hsubject
    obtain ⟨time, htime⟩ := Json.givesOr_iff.mp htime
    obtain ⟨labels, hlabels⟩ := Json.givesOr_iff.mp hlabels
    rw [getD_none_eq_join] at hsubject htime
    exact ⟨⟨some p.id, some p.source, some p.type, subject, time, labels⟩,
      ⟨hfits, Json.gives_iff.mp hid, Json.gives_iff.mp hsource, Json.gives_iff.mp htype,
        hsubject.1, htime.1, hlabels.1⟩,
      rfl, rfl, rfl, hsubject.2, htime.2, hlabels.2⟩
  · rintro ⟨d, ⟨hfits, hfill⟩, hid, hsource, htype, hsubject, htime, hlabels⟩
    rw [← getD_none_eq_join] at hsubject htime
    exact ⟨hfits, Json.gives_iff.mpr (hid ▸ hfill.id), Json.gives_iff.mpr (hsource ▸ hfill.source),
      Json.gives_iff.mpr (htype ▸ hfill.type), Json.givesOr_iff.mpr ⟨_, hfill.subject, hsubject⟩,
      Json.givesOr_iff.mpr ⟨_, hfill.time, htime⟩, Json.givesOr_iff.mpr ⟨_, hfill.labels, hlabels⟩⟩

/-- The checks of building a context. -/
def check (p : Parts) : Except Invalid Context :=
  ofParts p.id p.source p.type p.subject p.time p.labels

theorem check_eq_ok_iff {p : Parts} {c : Context} : p.check = .ok c ↔ p = c.parts := by
  unfold check ofParts
  constructor
  · intro h
    split at h
    · cases h
    · split at h
      · cases h
      · cases h
        rfl
  · rintro rfl
    exact (dif_neg c.id_ne_empty).trans (dif_neg c.type_ne_empty)

theorem make_eq_ok_iff {id source type : String} {c : Context} :
    make id source type = .ok c ↔ ⟨id, source, type, none, none, ∅⟩ = c.parts :=
  check_eq_ok_iff (p := ⟨id, source, type, none, none, ∅⟩)

/-- Building a context fails on parts that do not pass, for the same reason. -/
theorem check_of_make {p : Parts} {e : Invalid} (h : make p.id p.source p.type = .error e) :
    p.check = .error e := by
  unfold make ofParts at h
  unfold check ofParts
  split
  · rename_i hid
    rwa [dif_pos hid] at h
  · rename_i hid
    rw [dif_neg hid] at h
    split
    · rename_i htype
      rwa [dif_pos htype] at h
    · rename_i htype
      rw [dif_neg htype] at h
      cases h

theorem Complete.finish {p : Parts} {d : Draft} (h : p.Complete d) :
    d.finish = p.check.mapError fun e => .refused e.message := by
  obtain ⟨hid, hsource, htype, hsubject, htime, hlabels⟩ := h
  rw [Draft.finish, hid, hsource, htype, hsubject, htime, hlabels]
  rfl

theorem complete_of_finish {d : Draft} {c : Context} (h : d.finish = .ok c) :
    c.parts.Complete d := by
  obtain ⟨id, hid, h⟩ := bind_eq_ok.mp h
  obtain ⟨source, hsource, h⟩ := bind_eq_ok.mp h
  obtain ⟨type, htype, h⟩ := bind_eq_ok.mp h
  have hparts : (⟨id, source, type, d.subject.join, d.time.join, d.labels.getD ∅⟩ : Parts) = c.parts :=
    check_eq_ok_iff.mp (mapError_eq_ok.mp h)
  rw [← hparts]
  exact ⟨Json.required_eq_ok_iff.mp hid, Json.required_eq_ok_iff.mp hsource,
    Json.required_eq_ok_iff.mp htype, rfl, rfl, rfl⟩

/-- What comes of a tree in which the parts stand depends on the checks alone. -/
theorem DrawnFrom.decoder_eq {p : Parts} {t : Json.Tree} (h : p.DrawnFrom t) :
    decoder t = p.check.mapError fun e => .refused e.message := by
  obtain ⟨d, hread, hcomplete⟩ := drawnFrom_iff.mp h
  change (record.read {} t >>= Draft.finish) = _
  rw [hread]
  exact hcomplete.finish

end Parts

/-- A context is read exactly from its parts. -/
theorem decoder_eq_ok_iff {t : Json.Tree} {c : Context} :
    decoder t = .ok c ↔ c.parts.DrawnFrom t := by
  constructor
  · intro h
    obtain ⟨d, hread, hfinish⟩ := bind_eq_ok.mp h
    exact Parts.drawnFrom_iff.mpr ⟨d, hread, Parts.complete_of_finish hfinish⟩
  · intro h
    rw [h.decoder_eq, Parts.check_eq_ok_iff.mpr rfl]
    rfl

/-! ### Writing -/

/-- The members of a context as an object, in order; some may not be known. -/
def rows (c : Context) : List (String × Option Json) :=
  [("id", some (.string c.id)),
    ("labels", if c.labels.isEmpty then none else some (.ofDictionary .string c.labels)),
    ("source", some (.string c.source)), ("subject", c.subject.map .string),
    ("time", c.time.map fun t => .string t.text), ("type", some (.string c.type))]

theorem ascending_rows (c : Context) :
    (Json.known c.rows).Pairwise fun a b => compare a.1 b.1 = .lt := by
  apply Json.pairwise_known (R := fun a b => compare a b = .lt)
  change ["id", "labels", "source", "subject", "time", "type"].Pairwise fun a b => compare a b = .lt
  decide

/-- What is not known is left out. -/
theorem toJson_eq (c : Context) : c.toJson = .object (Json.known c.rows) := by
  have hmem : ∀ member, member ∈ c.fieldsJson ↔ member ∈ Json.known c.rows := by
    rintro ⟨name, value⟩
    rw [Json.mem_known]
    simp only [fieldsJson, rows, List.cons_append, List.nil_append, List.append_assoc,
      List.mem_cons, List.mem_append, List.not_mem_nil, or_false, Prod.mk.injEq, Option.mem_toList,
      Option.map_eq_some_iff, List.mem_ite_nil_left, eq_comm (a := some value), Option.some.injEq,
      Option.ite_none_left_eq_some]
    grind
  exact congrArg (fun m : Dictionary Json => Json.object m.toList)
    (Ascending.ofList_eq_of_mem (m := ⟨Json.known c.rows, c.ascending_rows⟩) hmem)

section

variable {c : Context} {members : List (String × Json)}

theorem numberless_of_perm (h : members.Perm (Json.known c.rows)) :
    (Json.object members).numberless := by
  apply Json.membersNumberless_iff.mpr
  rintro ⟨name, value⟩ hmember
  have hrow := Json.mem_known.mp (h.mem_iff.mp hmember)
  simp only [rows, List.mem_cons, List.not_mem_nil, or_false, Prod.mk.injEq,
    eq_comm (a := some value), Option.some.injEq, Option.map_eq_some_iff,
    Option.ite_none_left_eq_some] at hrow
  obtain ⟨-, rfl⟩ | ⟨-, -, rfl⟩ | ⟨-, rfl⟩ | ⟨-, s, -, rfl⟩ | ⟨-, t, -, rfl⟩ | ⟨-, rfl⟩ := hrow
  case inr.inl => exact Json.ofDictionary_numberless (fun _ => rfl) c.labels
  all_goals rfl

/-- The members give each field the value of its part, if there is one. -/
theorem given_of_perm (h : members.Perm (Json.known c.rows)) (name : String) :
    record.given name (Json.object members).toTree =
      ((c.rows.lookup name).join.map Json.toTree).toList := by
  refine Json.valuesOf_of_perm_known ?_ h name
  change ["id", "labels", "source", "subject", "time", "type"].Nodup
  decide

/-- The parts of a context stand in its members, if the time reads back. -/
theorem drawnFrom_of_perm (h : members.Perm (Json.known c.rows))
    (htime : ∀ t ∈ c.time, Timestamp.parse t.text = some t) :
    c.parts.DrawnFrom (Json.object members).toTree := by
  constructor
  · apply Json.ends_membersOf
    intro member hmember
    have hname := List.mem_map_of_mem (f := Prod.fst) (Json.mem_known.mp (h.mem_iff.mp hmember))
    change member.1 ∈ ["id", "labels", "source", "subject", "time", "type"] at hname
    change member.1 ∈ ["id", "source", "type", "subject", "time", "labels"]
    simp only [List.mem_cons, List.not_mem_nil, or_false] at hname ⊢
    grind
  · exact ⟨_, given_of_perm h "id", rfl⟩
  · exact ⟨_, given_of_perm h "source", rfl⟩
  · exact ⟨_, given_of_perm h "type", rfl⟩
  · rw [given_of_perm h]
    change Json.GivesOr none _ ((c.subject.map .string).map Json.toTree).toList c.subject
    cases c.subject with
    | none => exact .inl ⟨rfl, rfl⟩
    | some s => exact .inr ⟨_, rfl, rfl⟩
  · rw [given_of_perm h]
    change Json.GivesOr none _ ((c.time.map fun t => Json.string t.text).map Json.toTree).toList c.time
    cases htime' : c.time with
    | none => exact .inl ⟨rfl, rfl⟩
    | some t =>
      refine .inr ⟨_, rfl, ?_⟩
      change (timeDecoder (.string (some t.text))).map some = _
      rw [timeDecoder, htime t htime']
      rfl
  · rw [given_of_perm h]
    change Json.GivesOr ∅ _ ((if c.labels.isEmpty then none
      else some (.ofDictionary .string c.labels)).map Json.toTree).toList c.labels
    split
    · rename_i hempty
      exact .inl ⟨rfl, Ascending.ext (List.isEmpty_iff.mp hempty)⟩
    · exact .inr ⟨_, rfl, Json.dictionary_ofDictionary (fun _ => rfl) c.labels⟩

end

/-! ### What JSON keeps, and what it can bring in -/

/-- What can be made with the functions of contexts, with times of plain years that can be read. -/
inductive Derived : Context → Prop
  | make {id source type : String} {c : Context} (h : make id source type = .ok c) : Derived c
  | withSubject {c : Context} (h : Derived c) (subject : String) : Derived (c.withSubject subject)
  | withTime {c : Context} (h : Derived c) {s : String} {t : Timestamp}
      (hread : Timestamp.parse s = some t) (hyear : t.HasPlainYear) : Derived (c.withTime t)
  | withLabel {c : Context} (h : Derived c) (name value : String) : Derived (c.withLabel name value)
  | withLabels {c : Context} (h : Derived c) (labels : Dictionary String) :
      Derived (c.withLabels labels)
  | withType {c c' : Context} (h : Derived c) {type : String} (hmake : c.withType type = .ok c') :
      Derived c'

/-- Only one function sets the time, so the time of such a context reads back. -/
theorem Derived.parse_text {c : Context} (h : c.Derived) :
    ∀ t ∈ c.time, Timestamp.parse t.text = some t := by
  induction h with
  | @make _ _ _ c h =>
    have htime : c.time = none := (congrArg Parts.time (Parts.make_eq_ok_iff.mp h)).symm
    rw [htime]
    exact nofun
  | withSubject _ _ ih => exact ih
  | withTime _ hread hyear _ =>
    rintro t ⟨⟩
    exact Timestamp.parse_text (Timestamp.isValid_of_parse hread) hyear
  | withLabel _ _ _ ih => exact ih
  | withLabels _ _ ih => exact ih
  | withType _ hmake ih =>
    unfold Context.withType at hmake
    split at hmake
    · cases hmake
    · cases hmake
      exact ih

/-- The members of such a context may stand in any order. -/
theorem Derived.readsBack {c : Context} (h : c.Derived) {members : List (String × Json)}
    (hmembers : members.Perm (Json.known c.rows)) : Json.ReadsBack decoder (.object members) c :=
  .of_numberless (numberless_of_perm hmembers)
    (decoder_eq_ok_iff.mpr (drawnFrom_of_perm hmembers h.parse_text))

/-- Parts without an id or a type are refused with the message of building a context of them. -/
theorem Parts.exists_refuses {p : Parts} (h : p.id = "" ∨ p.type = "") :
    ∃ e, make p.id p.source p.type = .error e ∧ Json.Refuses decoder p.DrawnFrom e.message := by
  cases hmake : make p.id p.source p.type with
  | ok c =>
    have hparts := make_eq_ok_iff.mp hmake
    obtain hid | htype := h
    · exact absurd ((congrArg Parts.id hparts).symm.trans hid) c.id_ne_empty
    · exact absurd ((congrArg Parts.type hparts).symm.trans htype) c.type_ne_empty
  | error e =>
    refine ⟨e, rfl, .of_decode fun t hdrawn => ?_⟩
    rw [hdrawn.decoder_eq, check_of_make hmake]
    rfl

/-- What is written of contexts reads back, though it leaves out what is not known. What is read has
passed the checks of building a context, and what does not pass them is refused as if it were built. -/
theorem json_keeps_contexts :
    (∀ c : Context, c.toJson = .object (Json.known c.rows)) ∧
    (∀ c : Context, c.Derived → Json.ReadsBack decoder c.toJson c ∧
      ∀ members, members.Perm (Json.known c.rows) → Json.ReadsBack decoder (.object members) c) ∧
    (∀ t c, decoder t = .ok c ↔ c.parts.DrawnFrom t) ∧
    Json.ReadsOnly decoder (fun c _ => c.id ≠ "" ∧ c.type ≠ "") ∧
    ∀ p : Parts, p.id = "" ∨ p.type = "" →
      ∃ e, make p.id p.source p.type = .error e ∧ Json.Refuses decoder p.DrawnFrom e.message :=
  ⟨toJson_eq, fun c h => ⟨c.toJson_eq ▸ h.readsBack (.refl _), fun _ => h.readsBack⟩,
    fun _ _ => decoder_eq_ok_iff, .of_decode fun _ c _ => ⟨c.id_ne_empty, c.type_ne_empty⟩,
    fun _ h => Parts.exists_refuses h⟩

/-- The last second of 2016, in the middle. -/
def leapSecond : Timestamp :=
  ⟨⟨2016, 12, 31⟩, 23, 59, 60, 500000000⟩

/-- A build at this time, with a label. -/
def sampleContext : Context :=
  (withTime ⟨"b1", "/x", "com.example.build", none, none, ∅, by decide, by decide⟩
    leapSecond).withLabel "team" "infra"

/-- An array that has an empty type. -/
def typelessJson : Json :=
  .array [.string "1", .string "/x", .string "", .null]

theorem json_keeps_contexts_sample :
    sampleContext.Derived ∧ Json.ReadsBack decoder sampleContext.toJson sampleContext ∧
      Json.decodeText decoder typelessJson.text =
        .error (.refused "event type must not be empty") := by
  have hread : Timestamp.parse "2016-12-31T18:59:60.5-05:00" = some leapSecond := by
    decide
  have hmade : Derived ⟨"b1", "/x", "com.example.build", none, none, ∅, by decide, by decide⟩ :=
    .make (show make "b1" "/x" "com.example.build" = .ok _ from rfl)
  have hderived : sampleContext.Derived :=
    (hmade.withTime hread ⟨by decide, by decide⟩).withLabel "team" "infra"
  have hdrawn : Parts.DrawnFrom ⟨"1", "/x", "", none, none, ∅⟩ typelessJson.toTree := by
    constructor
    · change ∀ field ∈ ([⟨"time", true⟩, ⟨"labels", true⟩] : List Json.Field), field.mayLack
      decide
    · exact ⟨_, rfl, rfl⟩
    · exact ⟨_, rfl, rfl⟩
    · exact ⟨_, rfl, rfl⟩
    · exact .inr ⟨_, rfl, rfl⟩
    · exact .inl ⟨rfl, rfl⟩
    · exact .inl ⟨rfl, rfl⟩
  refine ⟨hderived, (json_keeps_contexts.2.1 _ hderived).1, ?_⟩
  obtain ⟨e, hmake, hrefuses⟩ := json_keeps_contexts.2.2.2.2 ⟨"1", "/x", "", none, none, ∅⟩ (.inr rfl)
  cases hmake
  exact hrefuses.input _ (by rw [Json.read_text rfl]; exact hdrawn)

end Herald.Context
