import DeskCalc.Entry
import DeskCalc.Json.Printer
import DeskCalc.Json.Reader
import DeskCalc.Keys
import DeskCalc.Machine
import DeskCalc.Product
import DeskCalc.Text.Characters
import DeskCalc.Text.Encoding

set_option autoImplicit false

/-! # Requests and endpoints

A request names a method and a target and may have a body. The body counts only if its media
type is JSON and its text is one well-formed document, in whatever encoding. From the document
the service reads the text of the caller's expression and the edit to make; what is missing or
of the wrong type is a reason to reject the request (`Rejection`), and the first one found is
reported.
-/

namespace DeskCalc.Service

/-! ## Bodies -/

/-- The body of a request. The bytes of the body are those of `text` in UTF-8. -/
structure Body where
  mediaType : String
  text : String
  deriving Repr

/-- The white space that may stand around a media type. -/
def isOptionalSpace (c : Char) : Bool := c == ' ' || c == '\t'

/-- The media type, without parameters and in lower case, is JSON or a format built on it. -/
def isJsonType (mediaType : String) : Bool :=
  let bare :=
    (trimWhere isOptionalSpace (mediaType.toList.takeWhile (· != ';'))).map Char.toLower
  let application := "application/".toList
  let suffix := "+json".toList
  bare == "application/json".toList ||
    (application.isPrefixOf bare && suffix.isSuffixOf bare)

/-- The text of a document, without the byte order mark that may stand before it. -/
def Body.documentText? (b : Body) : Option (List Char) :=
  if isJsonType b.mediaType then
    match Encoding.reread? b.text.toList with
    | some ('\ufeff' :: rest) => some rest
    | text => text
  else
    none

/-- The document in a body, if there is a well-formed one; one that is nested too deeply is a
fault. -/
def Body.document (limit : Option Nat) (b : Body) : Except Json.Container (Option Json) :=
  match b.documentText? with
  | none => .ok none
  | some text =>
      match Json.read limit text with
      | .ok document => .ok (some document)
      | .error .malformed => .ok none
      | .error (.tooDeep opened) => .error opened

/-- A request. -/
structure Request where
  method : String
  target : String
  body : Option Body
  deriving Repr

/-- The document of a request, if it has one. -/
def Request.document (limit : Option Nat) (r : Request) :
    Except Json.Container (Option Json) :=
  match r.body with
  | none => .ok none
  | some body => body.document limit

/-! ## Rejections -/

/-- Why the document of a request is not accepted. -/
inductive Rejection where
  | notAnObject
  | textMissing
  | textNotString
  | keyNotString
  | editMissing
  | unknownKind (kind : Json)
  | valueNotString

/-- The wording of a rejection. -/
def Rejection.message : Rejection → String
  | .notAnObject => "Expected a JSON object body"
  | .textMissing => "'text' is required"
  | .textNotString => "'text' must be a string"
  | .keyNotString => "'key' must be a string"
  | .editMissing => "Provide either 'key' or 'edit'"
  | .unknownKind kind => "Unknown edit kind: " ++ kind.toLiteral
  | .valueNotString => "'edit.value' must be a string"

/-! ## The endpoints

The service keeps no state: every request carries the text of the caller's expression, and the
answer carries the text after the edit. `edit` makes one edit, `evaluate` evaluates the text,
`press` makes one edit unless it is the one to evaluate.
-/

/-! ### Reading a document -/

/-- The fields of a document and the text among them. -/
def readText (document : Option Json) : Except Rejection (List (String × Json) × String) :=
  match document with
  | some (.object fields) =>
      match fields.lookup "text" with
      | none => .error .textMissing
      | some (.string text) => .ok (fields, text)
      | some _ => .error .textNotString
  | _ => .error .notAnObject

/-- The edit described by the fields of an edit object. -/
def readEditObject (fields : List (String × Json)) : Except Rejection Edit :=
  let kind := (fields.lookup "kind").getD .null
  match kind with
  | .string name =>
      match Edit.ofKind? name with
      | none => .error (.unknownKind kind)
      | some edit =>
          match fields.lookup "value" with
          | none => .ok edit
          | some (.string value) => .ok (edit.withValue value)
          | some _ => .error .valueNotString
  | _ => .error (.unknownKind kind)

/-- The edit that the fields ask for: by the label of a key, which may be no key of the
calculator, or by an edit object. -/
def readEdit (fields : List (String × Json)) : Except Rejection (Option Edit) :=
  match fields.lookup "key" with
  | some (.string label) => .ok (Keys.ofLabel? label)
  | some _ => .error .keyNotString
  | none =>
      match fields.lookup "edit" with
      | some (.object edit) => (readEditObject edit).map some
      | _ => .error .editMissing

/-! ### Answers -/

/-- Why an endpoint has no data to answer with. -/
inductive Refusal where
  | rejected (rejection : Rejection)
  | broken (breakdown : Breakdown)

/-- The answer to a request: a status and, if an endpoint was asked for its data, a document. -/
structure Response where
  status : Nat
  body : Option Json

/-- The document that says why there is no data. -/
def failureDocument (message : String) : Json :=
  .object [("success", .bool false), ("error", .string message)]

/-- The answer with the given data, or with the reason why there is none. -/
def Response.ofData : Except Refusal Json → Response
  | .ok data => ⟨200, some (.object [("success", .bool true), ("data", data)])⟩
  | .error (.rejected r) => ⟨400, some (failureDocument r.message)⟩
  | .error (.broken b) => ⟨500, some (failureDocument b.message)⟩

/-- The data of an outcome. -/
def outcomeData (o : Outcome) : Except Breakdown Json :=
  (showOutcome o Readout.defaultPlaces).map fun display =>
    .object
      [("value", match o.value? with | some x => .float x | none => .null),
       ("error", match o.fault? with | some f => .string f.kind.name | none => .null),
       ("message", .string o.message),
       ("display", .string display)]

/-- The data of the outcome of a text. -/
def evaluationData (text : String) : Except Refusal Json :=
  match evaluateEntry text.toList with
  | .error b => .error (.broken b)
  | .ok outcome =>
      match outcomeData outcome with
      | .error b => .error (.broken b)
      | .ok data => .ok data

/-- The text after an edit, if there is one. -/
def editedText (text : String) : Option Edit → String
  | none => text
  | some edit => String.ofList (editText text.toList edit Entry.defaultLimit)

/-- The data of the edit endpoint. -/
def editData (document : Option Json) : Except Refusal Json :=
  match readText document with
  | .error r => .error (.rejected r)
  | .ok (fields, text) =>
      match readEdit fields with
      | .error r => .error (.rejected r)
      | .ok edit => .ok (.object [("text", .string (editedText text edit))])

/-- The data of the evaluate endpoint. -/
def evaluateData (document : Option Json) : Except Refusal Json :=
  match readText document with
  | .error r => .error (.rejected r)
  | .ok (_, text) => evaluationData text

/-- The data of the press endpoint. -/
def pressData (document : Option Json) : Except Refusal Json :=
  match readText document with
  | .error r => .error (.rejected r)
  | .ok (fields, text) =>
      match readEdit fields with
      | .error r => .error (.rejected r)
      | .ok (some .evaluate) =>
          (evaluationData text).map fun result =>
            .object [("text", .string text), ("result", result)]
      | .ok edit => .ok (.object [("text", .string (editedText text edit)), ("result", .null)])

/-- The data of the info endpoint. -/
def infoData : Json :=
  .object
    [("name", .string Product.name),
     ("version", .string Product.version),
     ("endpoints", .object
       [("/api/health", .string "Service status"),
        ("/api/edit", .string
          "POST \x7btext, key\x7d or \x7btext, edit: \x7bkind, value\x7d\x7d - apply one edit"),
        ("/api/evaluate", .string "POST \x7btext\x7d - evaluate an expression"),
        ("/api/press", .string "POST \x7btext, key\x7d - apply a key, evaluating on \"=\"")])]

/-- The data of the health endpoint. -/
def healthData : Json :=
  .object [("status", .string "ok"), ("version", .string Product.version)]

/-! ### Endpoints -/

/-- An endpoint. -/
inductive Endpoint where
  | info
  | health
  | edit
  | evaluate
  | press
  deriving DecidableEq, Repr

namespace Endpoint

/-- All endpoints. -/
def all : List Endpoint := [.info, .health, .edit, .evaluate, .press]

/-- The path of an endpoint. -/
def path : Endpoint → String
  | .info => "/api"
  | .health => "/api/health"
  | .edit => "/api/edit"
  | .evaluate => "/api/evaluate"
  | .press => "/api/press"

/-- The method of an endpoint. -/
def method : Endpoint → String
  | .info | .health => "GET"
  | .edit | .evaluate | .press => "POST"

/-- The endpoint at a path. -/
def ofPath? (path : String) : Option Endpoint := all.find? (·.path == path)

theorem ofPath?_path (e : Endpoint) : ofPath? e.path = some e := by
  cases e <;> decide

/-- The data with which an endpoint answers a document. -/
def data (document : Option Json) : Endpoint → Except Refusal Json
  | .info => .ok infoData
  | .health => .ok healthData
  | .edit => editData document
  | .evaluate => evaluateData document
  | .press => pressData document

end Endpoint

end DeskCalc.Service
