import DeskCalc.Proofs.Machine
import DeskCalc.Proofs.Service.Request
import DeskCalc.Service.Client

set_option autoImplicit false

/-! # A client keeps pace with a calculator

The service keeps no state, and a calculator does. A client that owns its text and sends one
request after the other nevertheless sees what one calculator shows on which the same keys are
pressed. The calculator that follows the client (`Follows`) is pressed once for every request
that asks for a key, be it known or not, and is left alone by a request that is refused.

The invariant is that the calculator shows the text of the client (`Machine.Shows`). A key has
the same effect on what is shown as on the text (`Machine.Shows.press`), and a request that asks
for no key is refused and changes nothing (`Call.post_of_not_means`). So the calculator shows the
text after every sequence of requests (`Follows.shows`).
-/

namespace DeskCalc

/-! ## Reports of outcomes -/

/-- The fields of the object are those of an outcome and of its text on the result line. -/
structure Json.Reports (object : Json) (outcome : Outcome) (display : String) : Prop where
  value : object.get? "value" = some ((outcome.value?.map Json.float).getD .null)
  error : object.get? "error" =
    some ((outcome.fault?.map fun f => Json.string f.kind.name).getD .null)
  message : object.get? "message" = some (.string outcome.message)
  display : object.get? "display" = some (.string display)

theorem Json.Reports.ne_null {object : Json} {outcome : Outcome} {display : String}
    (h : object.Reports outcome display) : object ≠ .null := by
  rintro rfl
  cases h.display

namespace Service

theorem editedText_evaluate (text : String) : editedText text (some .evaluate) = text :=
  String.ofList_toList

theorem exists_outcomeData {outcome : Outcome} {display : String}
    (h : showOutcome outcome Readout.defaultPlaces = .ok display) :
    ∃ result, outcomeData outcome = .ok result ∧ result.Reports outcome display := by
  unfold outcomeData
  rw [h]
  refine ⟨_, rfl, ?_⟩
  cases outcome <;> exact ⟨rfl, rfl, rfl, rfl⟩

theorem exists_evaluationData (text : String) :
    ∃ outcome display result, evaluateEntry text.toList = .ok outcome ∧
      showOutcome outcome Readout.defaultPlaces = .ok display ∧
      evaluationData text = .ok result ∧ result.Reports outcome display := by
  obtain ⟨outcome, houtcome, hsound⟩ := exists_sound_evaluateEntry text.toList
  obtain ⟨display, hdisplay⟩ := hsound.exists_showOutcome Readout.defaultPlaces
  obtain ⟨result, hresult, hreports⟩ := exists_outcomeData hdisplay
  refine ⟨outcome, display, result, houtcome, hdisplay, ?_, hreports⟩
  simp only [evaluationData, houtcome, hresult]

/-! ## The data of a document that has been read -/

section

variable {e : Endpoint} {document : Option Json} {fields : List (String × Json)} {text : String}

theorem data_of_readText_error {r : Rejection} (he : e.method = "POST")
    (h : readText document = .error r) : e.data document = .error (.rejected r) := by
  cases e with
  | info => exact absurd he (by decide)
  | health => exact absurd he (by decide)
  | edit => simp only [Endpoint.data, editData, h]
  | evaluate => simp only [Endpoint.data, evaluateData, h]
  | press => simp only [Endpoint.data, pressData, h]

theorem data_of_readEdit_error {r : Rejection} (he : e = .edit ∨ e = .press)
    (hread : readText document = .ok (fields, text)) (hedit : readEdit fields = .error r) :
    e.data document = .error (.rejected r) := by
  rcases he with rfl | rfl
  · simp only [Endpoint.data, editData, hread, hedit]
  · simp only [Endpoint.data, pressData, hread, hedit]

/-- The data after an edit: the text, and at the press endpoint the outcome if it was asked
for. -/
theorem data_of_readEdit {key : Option Edit} (he : e = .edit ∨ e = .press)
    (hread : readText document = .ok (fields, text)) (hedit : readEdit fields = .ok key) :
    ∃ data, e.data document = .ok data ∧
      data.get? "text" = some (.string (editedText text key)) ∧
      ∀ result, (data.get? "result" = some result ∧ result ≠ .null) ↔
        e = .press ∧ key = some .evaluate ∧ evaluationData text = .ok result := by
  rcases he with rfl | rfl
  · -- the edit endpoint never has a result
    refine ⟨.object [("text", .string (editedText text key))], ?_, rfl, fun result => ?_⟩
    · simp only [Endpoint.data, editData, hread, hedit]
    · exact iff_of_false (fun hresult => by cases hresult.1) fun hpress => by cases hpress.1
  · by_cases hkey : key = some .evaluate
    · -- the text stays, and the result is an object
      subst hkey
      obtain ⟨outcome, display, report, -, -, hreport, hreports⟩ := exists_evaluationData text
      refine ⟨.object [("text", .string text), ("result", report)], ?_, ?_, fun result => ?_⟩
      · simp only [Endpoint.data, pressData, hread, hedit, hreport, Except.map]
      · rw [editedText_evaluate]
        rfl
      · constructor
        · rintro ⟨hresult, -⟩
          obtain rfl : report = result := Option.some.inj hresult
          exact ⟨rfl, rfl, hreport⟩
        · rintro ⟨-, -, hresult⟩
          obtain rfl : report = result := Except.ok.inj (hreport.symm.trans hresult)
          exact ⟨rfl, hreports.ne_null⟩
    · -- the result is there, but it is null
      refine ⟨.object [("text", .string (editedText text key)), ("result", .null)], ?_, rfl,
        fun result => iff_of_false ?_ fun hpress => hkey hpress.2.1⟩
      · simp only [Endpoint.data, pressData, hread, hedit]
      · rintro ⟨hresult, hne⟩
        exact hne (Option.some.inj hresult).symm

end

end Service

/-! ## A calculator that shows a text -/

namespace Machine

/-- The calculator has the usual settings and the text on its expression line. -/
structure Shows (m : Machine) (text : String) : Prop where
  expression : m.expression = text
  limit : m.entry.limit = Entry.defaultLimit
  places : m.places = Readout.defaultPlaces

theorem shows_default : default.Shows "" := ⟨rfl, rfl, rfl⟩

variable {m : Machine} {text : String}

theorem Shows.text_eq (h : m.Shows text) : m.entry.text = text.toList := by
  rw [← h.expression, Machine.expression, String.toList_ofList]

/-- An edit of the entry is the edit of the text that is shown. -/
theorem Shows.apply (h : m.Shows text) (edit : Edit) :
    Shows { m with entry := m.entry.apply edit } (Service.editedText text (some edit)) where
  expression := by
    show String.ofList (m.entry.apply edit).text = String.ofList (editText _ edit _)
    rw [← h.text_eq, ← h.limit, editText]
  limit := (Entry.apply_limit m.entry edit).trans h.limit
  places := h.places

/-- The outcome on show is no part of the text. -/
theorem Shows.last (h : m.Shows text) (outcome : Outcome) :
    Shows { m with last := outcome } text :=
  ⟨h.expression, h.limit, h.places⟩

theorem Shows.press_evaluate (h : m.Shows text) :
    ∃ outcome display result, m.press (some .evaluate) = .ok { m with last := outcome } ∧
      resultText { m with last := outcome } = .ok display ∧
      Service.evaluationData text = .ok result ∧ result.Reports outcome display := by
  obtain ⟨outcome, display, result, houtcome, hdisplay, hresult, hreports⟩ :=
    Service.exists_evaluationData text
  refine ⟨outcome, display, result, ?_, ?_, hresult, hreports⟩
  · rw [press, h.text_eq, houtcome]
    rfl
  · rw [resultText, h.places]
    exact hdisplay

/-- A key has the same effect on what is shown as on the text by itself. -/
theorem Shows.press (h : m.Shows text) (key : Option Edit) :
    ∃ m', m.press key = .ok m' ∧ m'.Shows (Service.editedText text key) := by
  cases key with
  | none => exact ⟨m, rfl, h⟩
  | some edit =>
      have happly := h.apply edit
      cases edit with
      | evaluate =>
          obtain ⟨outcome, -, -, hpress, -⟩ := h.press_evaluate
          exact ⟨_, hpress, happly.last outcome⟩
      | reset => exact ⟨m.reset, rfl, happly.last .empty⟩
      | digits run => exact ⟨_, rfl, happly⟩
      | point => exact ⟨_, rfl, happly⟩
      | operator symbol => exact ⟨_, rfl, happly⟩
      | backspace => exact ⟨_, rfl, happly⟩

end Machine

namespace Service.Client

/-! ## Requests -/

/-- What a request asks for: the key with a label, or the edit that a value describes. -/
inductive Ask where
  | key (label : String)
  | edit (object : Json)

namespace Ask

/-- The fields of a request besides the text. -/
def fields : Ask → List (String × Json)
  | .key label => [("key", .string label)]
  | .edit object => [("edit", object)]

/-- The request asks for this edit, or for a key that is no edit. -/
def Means : Ask → Option Edit → Prop
  | .key label, asked => Keys.ofLabel? label = asked
  | .edit object, asked => ∃ edit', asked = some edit' ∧ object.Describes edit'

end Ask

theorem readEdit_eq_ok_iff {ask : Ask} {key : Option Edit} :
    readEdit ask.fields = .ok key ↔ ask.Means key := by
  cases ask with
  | key label =>
      show Except.ok (Keys.ofLabel? label) = _ ↔ Keys.ofLabel? label = key
      exact ⟨Except.ok.inj, congrArg Except.ok⟩
  | edit object =>
      cases object with
      | object fields =>
          show (readEditObject fields).map some = _ ↔ _
          constructor
          · intro h
            cases hread : readEditObject fields with
            | error r =>
                rw [hread] at h
                cases h
            | ok edit =>
                rw [hread] at h
                exact ⟨edit, (Except.ok.inj h).symm, readEditObject_eq_ok_iff.1 hread⟩
          · rintro ⟨edit, rfl, hedit⟩
            rw [readEditObject_eq_ok_iff.2 hedit]
            rfl
      | _ =>
          -- only an object has a kind
          refine ⟨fun h => (by cases h), ?_⟩
          rintro ⟨edit, -, hkind, -⟩
          cases hkind

/-- The document of a request has the text and what is asked for. -/
theorem readText_document (ask : Ask) (text : String) :
    ∃ fields, readText (some (document text ask.fields)) = .ok (fields, text) ∧
      readEdit fields = readEdit ask.fields := by
  cases ask with
  | key label => exact ⟨[("text", .string text), ("key", .string label)], rfl, rfl⟩
  | edit object => exact ⟨[("text", .string text), ("edit", object)], rfl, rfl⟩

/-- An endpoint answers with its data, and the client takes over the text in it. -/
theorem post_path {e : Endpoint} (h : e.method = "POST") (text : String)
    (fields : List (String × Json)) :
    Client.post text e.path fields =
      (.ofData (e.data (some (document text fields))),
        (textOf? (.ofData (e.data (some (document text fields))))).getD text) := by
  have hanswer := answer_path e (some (document text fields))
  rw [h] at hanswer
  rw [Client.post, hanswer]

/-- A request to an endpoint that makes edits. -/
structure Call where
  endpoint : Endpoint
  ask : Ask
  endpoint_eq : endpoint = .edit ∨ endpoint = .press

namespace Call

/-- The path and the fields of the request. -/
def step (c : Call) : String × List (String × Json) := (c.endpoint.path, c.ask.fields)

/-- The answer to the request from a client with the given text, and its text after that. -/
def post (text : String) (c : Call) : Response × String :=
  Client.post text c.endpoint.path c.ask.fields

/-- The data of the answer to the request from a client with the given text. -/
def data (text : String) (c : Call) : Except Refusal Json :=
  c.endpoint.data (some (document text c.ask.fields))

theorem post_eq (text : String) (c : Call) :
    c.post text = (.ofData (c.data text), (textOf? (.ofData (c.data text))).getD text) := by
  refine post_path ?_ text c.ask.fields
  rcases c.endpoint_eq with h | h <;> rw [h] <;> rfl

theorem data_of_means {c : Call} {key : Option Edit} (h : c.ask.Means key) (text : String) :
    ∃ data, c.data text = .ok data ∧
      data.get? "text" = some (.string (editedText text key)) ∧
      ∀ result, (data.get? "result" = some result ∧ result ≠ .null) ↔
        c.endpoint = .press ∧ key = some .evaluate ∧ evaluationData text = .ok result := by
  obtain ⟨fields, hread, hedit⟩ := readText_document c.ask text
  rw [readEdit_eq_ok_iff.2 h] at hedit
  exact data_of_readEdit c.endpoint_eq hread hedit

/-- A request is rejected if it asks for nothing. -/
theorem data_of_not_means {c : Call} (h : ∀ key, ¬c.ask.Means key) (text : String) :
    ∃ r, c.data text = .error (.rejected r) := by
  obtain ⟨fields, hread, hedit⟩ := readText_document c.ask text
  cases hask : readEdit c.ask.fields with
  | ok key => exact absurd (readEdit_eq_ok_iff.1 hask) (h key)
  | error r =>
      rw [hask] at hedit
      exact ⟨r, data_of_readEdit_error c.endpoint_eq hread hedit⟩

end Call

/-! ## Sessions -/

/-- The data of an answer. -/
def dataOf? (r : Response) : Option Json := r.body.bind (Json.get? "data")

/-- The answer has a result, which is not null. -/
def HasResult (r : Response) (result : Json) : Prop :=
  (dataOf? r).bind (Json.get? "result") = some result ∧ result ≠ .null

theorem textOf?_ofData {data : Json} {text : String}
    (h : data.get? "text" = some (.string text)) : textOf? (.ofData (.ok data)) = some text := by
  have hdata : dataOf? (.ofData (.ok data)) = some data := rfl
  rw [dataOf?] at hdata
  rw [textOf?, hdata, Option.bind_some, h]
  rfl

namespace Call

variable {c : Call}

theorem post_of_means {key : Option Edit} (h : c.ask.Means key) (text : String) :
    (c.post text).1.status = 200 ∧ (c.post text).2 = editedText text key ∧
      ∀ result, HasResult (c.post text).1 result ↔
        c.endpoint = .press ∧ key = some .evaluate ∧ evaluationData text = .ok result := by
  obtain ⟨data, hdata, htext, hresult⟩ := data_of_means h text
  rw [post_eq, hdata]
  refine ⟨rfl, ?_, hresult⟩
  rw [textOf?_ofData htext, Option.getD_some]

theorem textOf?_post {key : Option Edit} (h : c.ask.Means key) (text : String) :
    textOf? (c.post text).1 = some (c.post text).2 := by
  obtain ⟨data, hdata, htext, -⟩ := data_of_means h text
  rw [post_eq, hdata, textOf?_ofData htext, Option.getD_some]

theorem post_of_not_means (h : ∀ key, ¬c.ask.Means key) (text : String) :
    (c.post text).1.status = 400 ∧ (c.post text).2 = text ∧
      ∀ result, ¬HasResult (c.post text).1 result := by
  obtain ⟨r, hdata⟩ := data_of_not_means h text
  rw [post_eq, hdata]
  exact ⟨rfl, rfl, fun result hresult => by cases hresult.1⟩

theorem post_cases (c : Call) (text : String) :
    ((c.post text).1.status = 200 ∧ (∃ key, c.ask.Means key) ∧
        textOf? (c.post text).1 = some (c.post text).2) ∨
      ((c.post text).1.status = 400 ∧ (∀ key, ¬c.ask.Means key) ∧ (c.post text).2 = text) := by
  by_cases h : ∃ key, c.ask.Means key
  · obtain ⟨key, hkey⟩ := h
    exact Or.inl ⟨(post_of_means hkey text).1, ⟨key, hkey⟩, textOf?_post hkey text⟩
  · have hnone := not_exists.1 h
    obtain ⟨hstatus, htext, -⟩ := post_of_not_means hnone text
    exact Or.inr ⟨hstatus, hnone, htext⟩

end Call

/-- The text of a client that began with no text, after its requests. -/
def textAfter (calls : List Call) : String :=
  calls.foldl (fun text call => (call.post text).2) ""

/-- The answer to a request that follows others. -/
def replyAfter (calls : List Call) (call : Call) : Response := (call.post (textAfter calls)).1

theorem textAfter_concat (calls : List Call) (call : Call) :
    textAfter (calls ++ [call]) = (call.post (textAfter calls)).2 := by
  unfold textAfter
  rw [List.foldl_append]
  rfl

theorem session_cons (text : String) (c : Call) (rest : List (String × List (String × Json))) :
    session text (c.step :: rest) = (c.post text).1 :: session (c.post text).2 rest := by
  rw [Call.step, session, Call.post]

theorem session_concat (calls : List Call) (call : Call) :
    session "" ((calls ++ [call]).map Call.step) =
      session "" (calls.map Call.step) ++ [replyAfter calls call] := by
  unfold replyAfter textAfter
  generalize "" = text
  induction calls generalizing text with
  | nil => exact session_cons text call []
  | cons first calls ih =>
      rw [List.cons_append, List.map_cons, List.map_cons, session_cons, session_cons, ih,
        List.foldl_cons, List.cons_append]

/-- The calculator is pressed with the keys that the requests ask for, one after the other. A
request that is refused leaves it alone. -/
inductive Follows : List Call → Machine → Prop
  | start : Follows [] .default
  | press {calls m call key m'} : Follows calls m → call.ask.Means key → m.press key = .ok m' →
      Follows (calls ++ [call]) m'
  | refused {calls m call} : Follows calls m → (replyAfter calls call).status = 400 →
      Follows (calls ++ [call]) m

/-- The calculator that follows a client shows the text of the client. -/
theorem Follows.shows {calls : List Call} {m : Machine} (h : Follows calls m) :
    m.Shows (textAfter calls) := by
  induction h with
  | start => exact Machine.shows_default
  | @press calls m call key m' _ hkey hpress ih =>
      obtain ⟨m'', hpress', hshows⟩ := ih.press key
      obtain rfl : m' = m'' := Except.ok.inj (hpress.symm.trans hpress')
      obtain ⟨-, htext, -⟩ := Call.post_of_means hkey (textAfter calls)
      rw [textAfter_concat, htext]
      exact hshows
  | @refused calls m call _ hstatus ih =>
      rcases call.post_cases (textAfter calls) with ⟨h200, -⟩ | ⟨-, -, htext⟩
      · cases hstatus.symm.trans h200
      · rw [textAfter_concat, htext]
        exact ih

theorem exists_follows (calls : List Call) : ∃ m, Follows calls m := by
  induction calls using List.reverseRecOn with
  | nil => exact ⟨.default, .start⟩
  | append_singleton calls call ih =>
      obtain ⟨m, hm⟩ := ih
      rcases call.post_cases (textAfter calls) with ⟨-, ⟨key, hkey⟩, -⟩ | ⟨h400, -⟩
      · obtain ⟨m', hpress, -⟩ := hm.shows.press key
        exact ⟨m', hm.press hkey hpress⟩
      · exact ⟨m, hm.refused h400⟩

theorem exists_hasResult_iff (c : Call) (text : String) :
    (∃ result, HasResult (c.post text).1 result) ↔
      c.endpoint = .press ∧ c.ask.Means (some .evaluate) := by
  constructor
  · rintro ⟨result, hresult⟩
    rcases c.post_cases text with ⟨-, ⟨key, hkey⟩, -⟩ | ⟨-, hnone, -⟩
    · obtain ⟨-, -, hresults⟩ := Call.post_of_means hkey text
      obtain ⟨hpress, rfl, -⟩ := (hresults result).1 hresult
      exact ⟨hpress, hkey⟩
    · obtain ⟨-, -, hresults⟩ := Call.post_of_not_means hnone text
      exact absurd hresult (hresults result)
  · rintro ⟨hpress, hkey⟩
    obtain ⟨-, -, result, -, -, hresult, -⟩ := exists_evaluationData text
    obtain ⟨-, -, hresults⟩ := Call.post_of_means hkey text
    exact ⟨result, (hresults result).2 ⟨hpress, rfl, hresult⟩⟩

/-- **A client keeps pace with a calculator.** Whatever is asked for, some calculator follows the
client, and every calculator that does shows its text. The next request is answered with status
200 and the text after it if it asks for a key, be it known or not. If it asks for nothing, it is
answered with status 400 and the text stays as it is. There is a result exactly at the press
endpoint and for the key to evaluate. The result is the data with which the evaluate endpoint
answers the same text, and it reports the outcome and the result line of the calculator once that
key is pressed. -/
theorem follows_calculator (calls : List Call) :
    (∃ m, Follows calls m) ∧
    ∀ m, Follows calls m →
      m.expression = textAfter calls ∧
      ∀ call : Call,
        session "" ((calls ++ [call]).map Call.step) =
          session "" (calls.map Call.step) ++ [replyAfter calls call] ∧
        ((replyAfter calls call).status = 200 ∧ (∃ key, call.ask.Means key) ∧
            textOf? (replyAfter calls call) = some (textAfter (calls ++ [call])) ∨
          (replyAfter calls call).status = 400 ∧ (∀ key, ¬call.ask.Means key) ∧
            textAfter (calls ++ [call]) = textAfter calls) ∧
        ((∃ result, HasResult (replyAfter calls call) result) ↔
          call.endpoint = .press ∧ call.ask.Means (some .evaluate)) ∧
        ∀ result, HasResult (replyAfter calls call) result →
          (Client.post (textAfter calls) Endpoint.evaluate.path []).1 = .ofData (.ok result) ∧
          ∃ m' display, m.press (some .evaluate) = .ok m' ∧ m'.resultText = .ok display ∧
            result.Reports m'.last display := by
  refine ⟨exists_follows calls, fun m hm => ⟨hm.shows.expression, fun call => ?_⟩⟩
  rw [textAfter_concat]
  refine ⟨session_concat calls call, call.post_cases _, exists_hasResult_iff call _, ?_⟩
  intro result hresult
  obtain ⟨outcome, display, report, hpress, hdisplay, hreport, hreports⟩ :=
    hm.shows.press_evaluate
  have hdata : evaluationData (textAfter calls) = .ok result := by
    obtain ⟨-, hkey⟩ := (exists_hasResult_iff call _).1 ⟨result, hresult⟩
    obtain ⟨-, -, hresults⟩ := Call.post_of_means hkey (textAfter calls)
    obtain ⟨-, -, hdata⟩ := (hresults result).1 hresult
    exact hdata
  obtain rfl : result = report := Except.ok.inj (hdata.symm.trans hreport)
  refine ⟨?_, _, display, hpress, hdisplay, hreports⟩
  rw [post_path rfl]
  exact congrArg Response.ofData hdata

end Service.Client

end DeskCalc
