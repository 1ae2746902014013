import DeskCalc.Service.Endpoint
import DeskCalc.Text.Characters
import DeskCalc.Text.Digits

set_option autoImplicit false

/-! # Targets, routes and clients

Where a request goes, what answers it there, and how a client puts one request after another.
-/

namespace DeskCalc

/-! ## Targets

A request says where it goes by a target: a URL or a part of one. Of it only the path counts.
The scheme and the authority before the path are dropped, as are the query and the fragment
after it, and percent escapes are replaced by what they stand for.
-/

namespace Service.Target

/-! ### The parts of a target -/

/-- The target without controls and spaces at its front, tabs and line ends. -/
def tidied (target : List Char) : List Char :=
  (target.dropWhile (·.toNat ≤ 0x20)).filter fun c => c != '\t' && c != '\r' && c != '\n'

/-- The characters of a scheme. -/
def isSchemeChar (c : Char) : Bool := c.isAlphanum || c == '+' || c == '-' || c == '.'

/-- The target after its scheme: a letter and more scheme characters before the first colon. -/
def afterScheme (target : List Char) : List Char :=
  match target.takeWhile (· != ':'), target.dropWhile (· != ':') with
  | first :: more, _ :: rest =>
      if first.isAlpha && more.all isSchemeChar then rest else target
  | _, _ => target

/-- The target after its authority, which stands between two slashes and the path. -/
def afterAuthority : List Char → List Char
  | '/' :: '/' :: rest => rest.dropWhile fun c => c != '/' && c != '?' && c != '#'
  | target => target

/-- The target up to its query or fragment. -/
def beforeQuery (target : List Char) : List Char :=
  target.takeWhile fun c => c != '?' && c != '#'

/-- The path in a target. -/
def located (target : List Char) : List Char :=
  beforeQuery (afterAuthority (afterScheme (tidied target)))

/-! ### Percent escapes -/

/-- A path with each escape replaced by the character of its byte. Only bytes of ASCII are
characters by themselves, and the paths of the service have no other characters. -/
def unescaped : List Char → List Char
  | [] => []
  | '%' :: a :: b :: rest =>
      match Digits.hexValue? a, Digits.hexValue? b with
      | some high, some low => Char.ofNat (16 * high + low) :: unescaped rest
      | _, _ => '%' :: unescaped (a :: b :: rest)
  | c :: rest => c :: unescaped rest

/-! ### Slashes -/

/-- A path with one slash in front, unless it is empty. -/
def rooted (path : List Char) : List Char :=
  if path = [] then [] else '/' :: path.dropWhile (· == '/')

/-- A path with one slash for every two that follow each other. -/
def mergeSlashes : List Char → List Char
  | '/' :: '/' :: rest => '/' :: mergeSlashes rest
  | c :: rest => c :: mergeSlashes rest
  | [] => []

/-- The path that a target means. The path in the target is itself a target, for it may again
have a scheme or an authority in front. -/
def path (target : List Char) : List Char := rooted (unescaped (located (located target)))

end Service.Target

/-! ## Routes

A request is answered by what stands at its path, if that accepts the method of the request.
Methods are taken in capitals. Every place may also be asked for its methods (`OPTIONS`), and
one that can be read for its headers (`HEAD`); such an answer has no document.

A path that has two slashes where there should be one is redirected. For any other path the
answer is that nothing is there, or that the method is wrong.
-/

namespace Service

/-- What stands at a path: an endpoint, or a file that could be read if there were any. -/
inductive Place where
  | endpoint (endpoint : Endpoint)
  | file
  deriving DecidableEq, Repr

namespace Place

/-- The path of the folder of files. -/
def folder : List Char := "/static/".toList

/-- The path of a file in the folder, whose name may have slashes but not in front. -/
def isFilePath (path : List Char) : Bool :=
  folder.isPrefixOf path &&
    match path.drop folder.length with
    | [] => false
    | first :: rest => first != '/' && !rest.contains '\n'

/-- What stands at a path. -/
def ofPath? (path : List Char) : Option Place :=
  match Endpoint.ofPath? (String.ofList path) with
  | some e => some (.endpoint e)
  | none => if isFilePath path then some .file else none

/-- The method that asks for the data of a place. -/
def method : Place → String
  | .endpoint e => e.method
  | .file => "GET"

/-- The place accepts a method. -/
def accepts (method : String) (place : Place) : Bool :=
  method == place.method || method == "OPTIONS" || (method == "HEAD" && place.method == "GET")

/-- The answer of a place to a method that it accepts. There are no files in the folder. -/
def answer (method : String) (document : Option Json) : Place → Response
  | .endpoint e => if method = e.method then .ofData (e.data document) else ⟨200, none⟩
  | .file => if method = "OPTIONS" then ⟨200, none⟩ else ⟨404, none⟩

end Place

/-- The answer to a document sent with a method, in capitals, to a path. -/
def answerAt (method : String) (path : List Char) (document : Option Json) : Response :=
  let place := Place.ofPath? path
  let merged := Place.ofPath? (Target.mergeSlashes path)
  match place.filter (·.accepts method) with
  | some p => p.answer method document
  | none =>
      if (merged.filter (·.accepts method)).isSome then ⟨308, none⟩
      else if place.isSome || merged.isSome then ⟨405, none⟩
      else ⟨404, none⟩

/-- The answer to a document sent with a method to a target. -/
def answer (method target : String) (document : Option Json) : Response :=
  answerAt (String.ofList (capitals method.toList)) (Target.path target.toList) document

/-- The answer to a request, whose document is read with a limit on its nesting. -/
def respond (r : Request) (limit : Option Nat := none) : Response :=
  match r.document limit with
  | .ok document => answer r.method r.target document
  | .error opened =>
      let response := answer r.method r.target none
      -- a document is read exactly where the lack of one is a reason to reject the request
      if response.status = 400 then ⟨500, some (failureDocument opened.tooDeepMessage)⟩
      else response

/-- An endpoint accepts the method that asks for its data. -/
theorem accepts_method (e : Endpoint) : (Place.endpoint e).accepts e.method = true := by
  simp [Place.accepts, Place.method]

/-- At its own path and by its own method an endpoint answers with its data. -/
theorem answer_path (e : Endpoint) (document : Option Json) :
    answer e.method e.path document = .ofData (e.data document) := by
  have hmethod : String.ofList (capitals e.method.toList) = e.method := by
    cases e <;> decide
  have hpath : String.ofList (Target.path e.path.toList) = e.path := by
    cases e <;> decide
  have hplace : Place.ofPath? (Target.path e.path.toList) = some (.endpoint e) := by
    simp [Place.ofPath?, hpath, Endpoint.ofPath?_path]
  simp [answer, answerAt, hmethod, hplace, Option.filter, accepts_method, Place.answer]

end Service

/-! ## A client of the service

The client owns the text of its expression. It sends the text with every request, and takes
over the text of every answer of status 200 that has one.
-/

namespace Service.Client

/-- The document of a request with more fields. -/
def document (text : String) (fields : List (String × Json)) : Json :=
  .object (Json.putAll [("text", .string text)] fields)

/-- The text in the data of an answer. -/
def textOf? (r : Response) : Option String :=
  match r.status, (r.body.bind (Json.get? "data")).bind (Json.get? "text") with
  | 200, some (.string text) => some text
  | _, _ => none

/-- The answer to a request, and the client's text after it. -/
def post (text path : String) (fields : List (String × Json)) : Response × String :=
  let response := answer "POST" path (some (document text fields))
  (response, (textOf? response).getD text)

/-- The answers to several requests. -/
def session (text : String) : List (String × List (String × Json)) → List Response
  | [] => []
  | (path, fields) :: rest =>
      let (response, next) := post text path fields
      response :: session next rest

end Service.Client

end DeskCalc
