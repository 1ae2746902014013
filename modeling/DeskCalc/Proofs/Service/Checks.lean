import DeskCalc.Proofs.Service.Client

set_option autoImplicit false

/-! # What a document has to be

The endpoints that take a document accept it if it has a text and, where an edit is made, asks for
one (`Endpoint.Accepts`). These conditions are a list of checks (`Endpoint.checks`), and a
document that is not accepted is refused with the wording of the first check that it does not
pass (`answers_document`). Nothing else can go wrong: every text has an outcome that can be shown,
and every edit a result.
-/

namespace DeskCalc

namespace Edit

/-- The names of the kinds of edits. -/
def kinds : List String := ["digits", "dot", "operator", "backspace", "reset", "evaluate"]

theorem ofKind?_eq_none_iff {name : String} : ofKind? name = none ↔ name ∉ kinds := by
  simp [ofKind?, kinds, kind, @eq_comm _ name]

end Edit

namespace Service

/-! ## Accepted documents -/

/-- The edit object names a kind of edit. -/
def NamesKind (edit : List (String × Json)) : Prop :=
  ∃ kind ∈ Edit.kinds, edit.lookup "kind" = some (.string kind)

/-- The value of the edit object, if it has one, is a text. -/
def HasTextValue (edit : List (String × Json)) : Prop :=
  ∀ value, edit.lookup "value" = some value → ∃ s, value = .string s

/-- The fields ask for an edit: by the label of a key, or else by an edit object. -/
def AsksForEdit (fields : List (String × Json)) : Prop :=
  (∃ label, fields.lookup "key" = some (.string label)) ∨
    fields.lookup "key" = none ∧
      ∃ edit, fields.lookup "edit" = some (.object edit) ∧ NamesKind edit ∧ HasTextValue edit

/-- The document is an object with a text, and asks for an edit unless the endpoint evaluates. -/
def Endpoint.Accepts (e : Endpoint) (document : Option Json) : Prop :=
  ∃ fields text, document = some (.object fields) ∧ fields.lookup "text" = some (.string text) ∧
    (e = .evaluate ∨ AsksForEdit fields)

/-! ## Checks -/

/-- A field of a document. -/
def field (document : Option Json) (name : String) : Option Json := document.bind (Json.get? name)

/-- A field of the edit object in a document. -/
def editField (document : Option Json) (name : String) : Option Json :=
  (field document "edit").bind (Json.get? name)

theorem editField_object {fields edit : List (String × Json)}
    (h : fields.lookup "edit" = some (.object edit)) (name : String) :
    editField (some (.object fields)) name = edit.lookup name := by
  show (fields.lookup "edit").bind (Json.get? name) = _
  rw [h]
  rfl

/-- A condition on a document. -/
inductive Check where
  | object
  | textPresent
  | textString
  | keyString
  | editObject
  | kindKnown
  | valueString

namespace Check

/-- The document meets the condition. The edit object does not count beside a key. -/
def Passes (document : Option Json) : Check → Prop
  | .object => ∃ fields, document = some (.object fields)
  | .textPresent => ∃ text, field document "text" = some text
  | .textString => ∃ text, field document "text" = some (.string text)
  | .keyString => ∀ key, field document "key" = some key → ∃ label, key = .string label
  | .editObject =>
      field document "key" = none → ∃ edit, field document "edit" = some (.object edit)
  | .kindKnown =>
      field document "key" = none →
        ∃ kind ∈ Edit.kinds, editField document "kind" = some (.string kind)
  | .valueString =>
      field document "key" = none →
        ∀ value, editField document "value" = some value → ∃ s, value = .string s

/-- Why a document that does not meet the condition is rejected. -/
def rejection (document : Option Json) : Check → Rejection
  | .object => .notAnObject
  | .textPresent => .textMissing
  | .textString => .textNotString
  | .keyString => .keyNotString
  | .editObject => .editMissing
  | .kindKnown => .unknownKind ((editField document "kind").getD .null)
  | .valueString => .valueNotString

end Check

/-- The checks of every endpoint that takes a document. -/
def textChecks : List Check := [.object, .textPresent, .textString]

/-- The checks of the endpoints that make edits, after those of the text. -/
def editChecks : List Check := [.keyString, .editObject, .kindKnown, .valueString]

/-- The checks of an endpoint, in order. -/
def Endpoint.checks : Endpoint → List Check
  | .info | .health => []
  | .evaluate => textChecks
  | .edit | .press => textChecks ++ editChecks

variable {document : Option Json} {fields : List (String × Json)} {checks : List Check} {c : Check}

/-- The check is the first one that the document does not pass. -/
def FirstFailing (document : Option Json) (checks : List Check) (c : Check) : Prop :=
  ∃ before after, checks = before ++ c :: after ∧ (∀ b ∈ before, b.Passes document) ∧
    ¬c.Passes document

theorem FirstFailing.exists_not_passes (h : FirstFailing document checks c) :
    ¬∀ b ∈ checks, b.Passes document := by
  obtain ⟨before, after, rfl, -, hnot⟩ := h
  intro hall
  exact hnot (hall c (by simp))

theorem FirstFailing.append (h : FirstFailing document checks c) (more : List Check) :
    FirstFailing document (checks ++ more) c := by
  obtain ⟨before, after, rfl, hbefore, hnot⟩ := h
  exact ⟨before, after ++ more, by simp, hbefore, hnot⟩

theorem FirstFailing.append_left {first : List Check} (hfirst : ∀ b ∈ first, b.Passes document)
    (h : FirstFailing document checks c) : FirstFailing document (first ++ checks) c := by
  obtain ⟨before, after, rfl, hbefore, hnot⟩ := h
  refine ⟨first ++ before, after, by simp, fun b hb => ?_, hnot⟩
  rcases List.mem_append.1 hb with hb | hb
  · exact hfirst b hb
  · exact hbefore b hb

/-! ## An accepted document passes every check -/

theorem passes_textChecks {text : String} (h : fields.lookup "text" = some (.string text)) :
    ∀ c ∈ textChecks, c.Passes (some (.object fields)) := by
  refine List.forall_mem_cons.2 ⟨⟨fields, rfl⟩, ?_⟩
  exact List.forall_mem_cons.2 ⟨⟨_, h⟩, List.forall_mem_singleton.2 ⟨text, h⟩⟩

theorem passes_editChecks (h : AsksForEdit fields) :
    ∀ c ∈ editChecks, c.Passes (some (.object fields)) := by
  rcases h with ⟨label, hkey⟩ | ⟨hkey, edit, hedit, hkind, hvalue⟩
  · -- the last three checks are about documents without a key
    have hnot {p : Prop} (hnone : fields.lookup "key" = none) : p := by
      rw [hkey] at hnone
      cases hnone
    refine List.forall_mem_cons.2 ⟨fun key hfield => ?_, ?_⟩
    · exact ⟨label, Option.some.inj (hfield.symm.trans hkey)⟩
    · exact List.forall_mem_cons.2
        ⟨hnot, List.forall_mem_cons.2 ⟨hnot, List.forall_mem_singleton.2 hnot⟩⟩
  · refine List.forall_mem_cons.2 ⟨fun key hfield => ?_, ?_⟩
    · cases hkey.symm.trans hfield
    · refine List.forall_mem_cons.2 ⟨fun _ => ⟨edit, hedit⟩, ?_⟩
      refine List.forall_mem_cons.2 ⟨fun _ => ?_, List.forall_mem_singleton.2 fun _ => ?_⟩
      · rw [editField_object hedit]
        exact hkind
      · rw [editField_object hedit]
        exact hvalue

theorem passes_of_accepts {e : Endpoint} (h : e.Accepts document) :
    ∀ c ∈ e.checks, c.Passes document := by
  obtain ⟨fields, text, rfl, htext, hedit⟩ := h
  have htextChecks := passes_textChecks htext
  cases e with
  | info => exact List.forall_mem_nil _
  | health => exact List.forall_mem_nil _
  | evaluate => exact htextChecks
  | edit =>
      have hasks := hedit.resolve_left (by simp)
      exact List.forall_mem_append.2 ⟨htextChecks, passes_editChecks hasks⟩
  | press =>
      have hasks := hedit.resolve_left (by simp)
      exact List.forall_mem_append.2 ⟨htextChecks, passes_editChecks hasks⟩

/-! ## Reading stops at the first check that fails -/

theorem readText_cases (document : Option Json) :
    (∃ fields text, document = some (.object fields) ∧
        fields.lookup "text" = some (.string text) ∧ readText document = .ok (fields, text)) ∨
      ∃ c, FirstFailing document textChecks c ∧
        readText document = .error (c.rejection document) := by
  have hfirst {document : Option Json} (h : ¬Check.object.Passes document) :
      FirstFailing document textChecks .object :=
    ⟨[], [.textPresent, .textString], rfl, List.forall_mem_nil _, h⟩
  rcases document with - | json
  · exact Or.inr ⟨.object, hfirst (by simp [Check.Passes]), rfl⟩
  cases json with
  | object fields =>
      have hobject : Check.object.Passes (some (.object fields)) := ⟨fields, rfl⟩
      cases htext : fields.lookup "text" with
      | none =>
          refine Or.inr ⟨.textPresent, ⟨[.object], [.textString], rfl, ?_, ?_⟩, ?_⟩
          · exact List.forall_mem_singleton.2 hobject
          · rintro ⟨text, hfield⟩
            cases htext.symm.trans hfield
          · simp only [readText, htext, Check.rejection]
      | some value =>
          by_cases hstring : ∃ text, value = .string text
          · obtain ⟨text, rfl⟩ := hstring
            exact Or.inl ⟨fields, text, rfl, htext, by simp only [readText, htext]⟩
          · refine Or.inr ⟨.textString, ⟨[.object, .textPresent], [], rfl, ?_, ?_⟩, ?_⟩
            · exact List.forall_mem_cons.2
                ⟨hobject, List.forall_mem_singleton.2 ⟨value, htext⟩⟩
            · rintro ⟨text, hfield⟩
              exact hstring ⟨text, Option.some.inj (htext.symm.trans hfield)⟩
            · cases value with
              | string text => exact absurd ⟨text, rfl⟩ hstring
              | _ => simp only [readText, htext, Check.rejection]
  | _ => exact Or.inr ⟨.object, hfirst (by simp [Check.Passes]), rfl⟩

theorem readEditObject_of_not_namesKind {edit : List (String × Json)} (h : ¬NamesKind edit) :
    readEditObject edit = .error (.unknownKind ((edit.lookup "kind").getD .null)) := by
  unfold readEditObject
  dsimp only
  cases hkind : edit.lookup "kind" with
  | none => rfl
  | some value =>
      cases value with
      | string name =>
          have hnone : Edit.ofKind? name = none :=
            Edit.ofKind?_eq_none_iff.2 fun hmem => h ⟨name, hmem, hkind⟩
          rw [Option.getD_some]
          dsimp only
          rw [hnone]
      | _ => rfl

theorem NamesKind.exists_ofKind? {edit : List (String × Json)} (h : NamesKind edit) :
    ∃ kind asked, edit.lookup "kind" = some (.string kind) ∧ Edit.ofKind? kind = some asked := by
  obtain ⟨kind, hmem, hkind⟩ := h
  cases hasked : Edit.ofKind? kind with
  | none => exact absurd hmem (Edit.ofKind?_eq_none_iff.1 hasked)
  | some asked => exact ⟨kind, asked, hkind, hasked⟩

theorem readEditObject_of_not_hasTextValue {edit : List (String × Json)} (hkind : NamesKind edit)
    (h : ¬HasTextValue edit) : readEditObject edit = .error .valueNotString := by
  obtain ⟨kind, asked, hkind, hasked⟩ := hkind.exists_ofKind?
  cases hvalue : edit.lookup "value" with
  | none =>
      refine absurd (fun value hsome => ?_) h
      cases hvalue.symm.trans hsome
  | some value =>
      cases value with
      | string s =>
          refine absurd (fun value hsome => ?_) h
          exact ⟨s, Option.some.inj (hsome.symm.trans hvalue)⟩
      | _ => simp only [readEditObject, hkind, hasked, hvalue, Option.getD_some]

theorem exists_readEditObject_eq_ok {edit : List (String × Json)} (hkind : NamesKind edit)
    (h : HasTextValue edit) : ∃ asked, readEditObject edit = .ok asked := by
  obtain ⟨kind, asked, hkind, hasked⟩ := hkind.exists_ofKind?
  cases hvalue : edit.lookup "value" with
  | none => exact ⟨asked, by simp only [readEditObject, hkind, hasked, hvalue, Option.getD_some]⟩
  | some value =>
      obtain ⟨s, rfl⟩ := h value hvalue
      exact ⟨asked.withValue s,
        by simp only [readEditObject, hkind, hasked, hvalue, Option.getD_some]⟩

theorem readEdit_cases (fields : List (String × Json)) :
    (AsksForEdit fields ∧ ∃ key, readEdit fields = .ok key) ∨
      ∃ c, FirstFailing (some (.object fields)) editChecks c ∧
        readEdit fields = .error (c.rejection (some (.object fields))) := by
  cases hkey : fields.lookup "key" with
  | some key =>
      by_cases hstring : ∃ label, key = .string label
      · obtain ⟨label, rfl⟩ := hstring
        exact Or.inl ⟨Or.inl ⟨label, hkey⟩, Keys.ofLabel? label, by simp only [readEdit, hkey]⟩
      · refine Or.inr ⟨.keyString, ⟨[], _, rfl, List.forall_mem_nil _, ?_⟩, ?_⟩
        · exact fun hall => hstring (hall key hkey)
        · cases key with
          | string label => exact absurd ⟨label, rfl⟩ hstring
          | _ => simp only [readEdit, hkey, Check.rejection]
  | none =>
      have hkeyString : Check.keyString.Passes (some (.object fields)) :=
        fun key hfield => by cases hkey.symm.trans hfield
      by_cases hobject : ∃ edit, fields.lookup "edit" = some (.object edit)
      · obtain ⟨edit, hedit⟩ := hobject
        have heditObject : Check.editObject.Passes (some (.object fields)) :=
          fun _ => ⟨edit, hedit⟩
        have hread : readEdit fields = (readEditObject edit).map some := by
          simp only [readEdit, hkey, hedit]
        rw [hread]
        by_cases hkind : NamesKind edit
        · by_cases hvalue : HasTextValue edit
          · obtain ⟨asked, hok⟩ := exists_readEditObject_eq_ok hkind hvalue
            exact Or.inl ⟨Or.inr ⟨hkey, edit, hedit, hkind, hvalue⟩, some asked, by rw [hok]; rfl⟩
          · have hkindKnown : Check.kindKnown.Passes (some (.object fields)) := by
              intro _
              rw [editField_object hedit]
              exact hkind
            refine Or.inr ⟨.valueString,
              ⟨[.keyString, .editObject, .kindKnown], [], rfl, ?_, fun hpass => ?_⟩, ?_⟩
            · exact List.forall_mem_cons.2 ⟨hkeyString, List.forall_mem_cons.2
                ⟨heditObject, List.forall_mem_singleton.2 hkindKnown⟩⟩
            · have hall := hpass hkey
              rw [editField_object hedit] at hall
              exact hvalue hall
            · rw [readEditObject_of_not_hasTextValue hkind hvalue]
              rfl
        · refine Or.inr ⟨.kindKnown,
            ⟨[.keyString, .editObject], [.valueString], rfl, ?_, fun hpass => ?_⟩, ?_⟩
          · exact List.forall_mem_cons.2 ⟨hkeyString, List.forall_mem_singleton.2 heditObject⟩
          · have hknown := hpass hkey
            rw [editField_object hedit] at hknown
            exact hkind hknown
          · rw [readEditObject_of_not_namesKind hkind, Check.rejection, editField_object hedit]
            rfl
      · refine Or.inr ⟨.editObject,
          ⟨[.keyString], [.kindKnown, .valueString], rfl, ?_, fun hpass => hobject (hpass hkey)⟩,
          ?_⟩
        · exact List.forall_mem_singleton.2 hkeyString
        · simp only [readEdit, hkey]
          cases hedit : fields.lookup "edit" with
          | none => rfl
          | some value =>
              cases value with
              | object edit => exact absurd ⟨edit, hedit⟩ hobject
              | _ => rfl

/-! ## Answers -/

/-- The answer to a document sent to an endpoint. -/
def Endpoint.reply (e : Endpoint) (document : Option Json) : Response :=
  answer "POST" e.path document

/-- The answer of status 200, which says so and has data. -/
structure Response.Granted (r : Response) : Prop where
  status : r.status = 200
  success : field r.body "success" = some (.bool true)
  data : ∃ data, field r.body "data" = some data

/-- The answer of status 400, which says so and has a wording but no data. -/
structure Response.Refused (r : Response) (wording : String) : Prop where
  status : r.status = 400
  success : field r.body "success" = some (.bool false)
  data : field r.body "data" = none
  error : field r.body "error" = some (.string wording)

theorem reply_eq {e : Endpoint} (he : e.method = "POST") (document : Option Json) :
    e.reply document = .ofData (e.data document) := by
  rw [Endpoint.reply, ← he]
  exact answer_path e document

theorem granted_ofData (data : Json) : (Response.ofData (.ok data)).Granted :=
  ⟨rfl, rfl, data, rfl⟩

theorem refused_ofData (r : Rejection) :
    (Response.ofData (.error (.rejected r))).Refused r.message :=
  ⟨rfl, rfl, rfl, rfl⟩

theorem data_cases {e : Endpoint} (he : e.method = "POST") (document : Option Json) :
    (e.Accepts document ∧ ∃ data, e.data document = .ok data) ∨
      ∃ c, FirstFailing document e.checks c ∧
        e.data document = .error (.rejected (c.rejection document)) := by
  rcases readText_cases document with ⟨fields, text, rfl, htext, hread⟩ | ⟨c, hfails, hread⟩
  · -- the endpoints that make edits read more than the text
    have hedits (he : e = .edit ∨ e = .press) (hchecks : e.checks = textChecks ++ editChecks) :
        (e.Accepts (some (.object fields)) ∧ ∃ data, e.data (some (.object fields)) = .ok data) ∨
          ∃ c, FirstFailing (some (.object fields)) e.checks c ∧
            e.data (some (.object fields)) =
              .error (.rejected (c.rejection (some (.object fields)))) := by
      rcases readEdit_cases fields with ⟨hasks, key, hedit⟩ | ⟨c, hfails, hedit⟩
      · obtain ⟨data, hdata, -⟩ := data_of_readEdit he hread hedit
        exact Or.inl ⟨⟨fields, text, rfl, htext, Or.inr hasks⟩, data, hdata⟩
      · rw [hchecks]
        exact Or.inr ⟨c, hfails.append_left (passes_textChecks htext),
          data_of_readEdit_error he hread hedit⟩
    cases e with
    | info => exact absurd he (by decide)
    | health => exact absurd he (by decide)
    | evaluate =>
        obtain ⟨-, -, data, -, -, hdata, -⟩ := exists_evaluationData text
        refine Or.inl ⟨⟨fields, text, rfl, htext, Or.inl rfl⟩, data, ?_⟩
        simp only [Endpoint.data, evaluateData, hread, hdata]
    | edit => exact hedits (Or.inl rfl) rfl
    | press => exact hedits (Or.inr rfl) rfl
  · refine Or.inr ⟨c, ?_, data_of_readText_error he hread⟩
    cases e with
    | info => exact absurd he (by decide)
    | health => exact absurd he (by decide)
    | evaluate => exact hfails
    | edit => exact hfails.append editChecks
    | press => exact hfails.append editChecks

theorem reply_cases {e : Endpoint} (he : e.method = "POST") (document : Option Json) :
    (e.Accepts document ∧ (e.reply document).Granted) ∨
      ∃ c, FirstFailing document e.checks c ∧
        (e.reply document).Refused (c.rejection document).message := by
  rw [reply_eq he]
  rcases data_cases he document with ⟨haccepts, data, hdata⟩ | ⟨c, hfails, hdata⟩
  · rw [hdata]
    exact Or.inl ⟨haccepts, granted_ofData data⟩
  · rw [hdata]
    exact Or.inr ⟨c, hfails, refused_ofData _⟩

theorem granted_iff {e : Endpoint} (he : e.method = "POST") (document : Option Json) :
    (e.reply document).Granted ↔ e.Accepts document := by
  rcases reply_cases he document with ⟨haccepts, hgranted⟩ | ⟨c, hfails, hrefused⟩
  · exact iff_of_true hgranted haccepts
  · refine iff_of_false (fun hgranted => ?_) fun haccepts => ?_
    · cases hrefused.status.symm.trans hgranted.status
    · exact hfails.exists_not_passes (passes_of_accepts haccepts)

/-- Evaluation reads nothing but the text. -/
theorem reply_evaluate_congr {fields fields' : List (String × Json)}
    (h : fields.lookup "text" = fields'.lookup "text") :
    Endpoint.evaluate.reply (some (.object fields)) =
      Endpoint.evaluate.reply (some (.object fields')) := by
  have hdata : evaluateData (some (.object fields)) = evaluateData (some (.object fields')) := by
    unfold evaluateData readText
    dsimp only
    rw [h]
    cases fields'.lookup "text" with
    | none => rfl
    | some value => cases value <;> rfl
  rw [reply_eq rfl, reply_eq rfl]
  exact congrArg Response.ofData hdata

/-- The two endpoints that make edits differ in the outcome of an evaluation only. -/
theorem reply_edit_agrees (document : Option Json) :
    (Endpoint.edit.reply document).status = (Endpoint.press.reply document).status ∧
      field (Endpoint.edit.reply document).body "error" =
        field (Endpoint.press.reply document).body "error" ∧
      Client.textOf? (Endpoint.edit.reply document) =
        Client.textOf? (Endpoint.press.reply document) := by
  rw [reply_eq rfl, reply_eq rfl]
  rcases readText_cases document with ⟨fields, text, rfl, -, hread⟩ | ⟨c, -, hread⟩
  · rcases readEdit_cases fields with ⟨-, key, hedit⟩ | ⟨c, -, hedit⟩
    · obtain ⟨data, hdata, htext, -⟩ := data_of_readEdit (Or.inl rfl) hread hedit
      obtain ⟨data', hdata', htext', -⟩ := data_of_readEdit (Or.inr rfl) hread hedit
      rw [hdata, hdata', Client.textOf?_ofData htext, Client.textOf?_ofData htext']
      exact ⟨rfl, rfl, rfl⟩
    · rw [data_of_readEdit_error (Or.inl rfl) hread hedit,
        data_of_readEdit_error (Or.inr rfl) hread hedit]
      exact ⟨rfl, rfl, rfl⟩
  · rw [data_of_readText_error rfl hread, data_of_readText_error rfl hread]
    exact ⟨rfl, rfl, rfl⟩

/-- **Every document is accepted or refused for a reason.** An endpoint that takes a document
grants it exactly when it accepts it, and refuses any other with the wording of the first check
that fails. Evaluation depends on the text alone. The two endpoints that make edits agree on the
status, on the wording of a refusal and on the text. -/
theorem answers_document (document : Option Json) :
    (∀ e : Endpoint, e.method = "POST" →
      ((e.reply document).Granted ↔ e.Accepts document) ∧
      (¬e.Accepts document → ∃ c, FirstFailing document e.checks c ∧
        (e.reply document).Refused (c.rejection document).message)) ∧
    (∀ fields fields' : List (String × Json), fields.lookup "text" = fields'.lookup "text" →
      Endpoint.evaluate.reply (some (.object fields)) =
        Endpoint.evaluate.reply (some (.object fields'))) ∧
    (Endpoint.edit.reply document).status = (Endpoint.press.reply document).status ∧
    field (Endpoint.edit.reply document).body "error" =
      field (Endpoint.press.reply document).body "error" ∧
    Client.textOf? (Endpoint.edit.reply document) =
      Client.textOf? (Endpoint.press.reply document) := by
  refine ⟨fun e he => ⟨granted_iff he document, fun hnot => ?_⟩,
    fun fields fields' h => reply_evaluate_congr h, reply_edit_agrees document⟩
  rcases reply_cases he document with ⟨haccepts, -⟩ | hrefused
  · exact absurd haccepts hnot
  · exact hrefused

/-- A kind that is an array is refused by its name, although the value is wrong as well. -/
theorem answers_document_array :
    ∃ c, FirstFailing
        (some (.object [("text", .string "1"),
          ("edit", .object [("kind", .array [.int 1]), ("value", .null)])]))
        Endpoint.press.checks c ∧
      (Endpoint.press.reply
        (some (.object [("text", .string "1"),
          ("edit", .object [("kind", .array [.int 1]), ("value", .null)])]))).Refused
        "Unknown edit kind: [1]" := by
  obtain ⟨hpost, -⟩ := answers_document (some (.object [("text", .string "1"),
    ("edit", .object [("kind", .array [.int 1]), ("value", .null)])]))
  obtain ⟨-, hrefused⟩ := hpost .press rfl
  obtain ⟨c, hfails, hreply⟩ := hrefused (by
    rintro ⟨fields, text, hfields, -, hedit⟩
    cases hfields
    rcases hedit.resolve_left (by simp) with ⟨label, hkey⟩ | ⟨-, edit, hobject, ⟨kind, -, hkind⟩, -⟩
    · cases hkey
    · cases hobject
      cases hkind)
  refine ⟨c, hfails, ?_⟩
  have herror : field (Endpoint.press.reply (some (.object [("text", .string "1"),
      ("edit", .object [("kind", .array [.int 1]), ("value", .null)])]))).body "error" =
      some (.string "Unknown edit kind: [1]") := by
    rw [reply_eq rfl]
    rfl
  have hwording := Json.string.inj (Option.some.inj (hreply.error.symm.trans herror))
  rw [hwording] at hreply
  exact hreply

end Service

end DeskCalc
