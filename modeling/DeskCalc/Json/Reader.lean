import DeskCalc.Json.Lexeme

set_option autoImplicit false

/-! # Reading JSON documents

The lexemes of a document are put together by a machine with a stack. The stack holds the
arrays and objects that are open; beside it the machine knows what is due next. Of several
fields of one name an object keeps the place of the first and the value of the last.

There may be a limit on how many arrays and objects are open at once. A document that is nested
more deeply is not said to be malformed: the reader gives up at the bracket that goes too far and
does not look at what follows. So of the faults of a document the first one counts, and the
lexemes before a place where the scanner stops are read as well.
-/

namespace DeskCalc.Json

/-! ## Faults -/

/-- An array or an object. -/
inductive Container where
  | array
  | object
  deriving DecidableEq, Repr

/-- The word for an array or an object. -/
def Container.word : Container → String
  | .array => "array"
  | .object => "object"

/-- The wording of a document that opens an array or object too many. -/
def Container.tooDeepMessage (opened : Container) : String :=
  "maximum recursion depth exceeded while decoding a JSON " ++ opened.word ++
    " from a unicode string"

/-- Why a document is not read. -/
inductive ReadFault where
  /-- It is not well formed. -/
  | malformed
  /-- It opens an array or object inside as many others as may be open. -/
  | tooDeep (opened : Container)
  deriving DecidableEq, Repr

/-! ## The machine -/

/-- An array or object that is open while a value in it is read: an array with its items so
far in reverse, or an object with its fields so far and the name of the next one. -/
inductive Frame where
  | items (before : List Json)
  | field (before : List (String × Json)) (key : String)

/-- What is due next, or the value that has just been completed. -/
inductive Focus where
  /-- A value. -/
  | value
  /-- A value or the end of an empty array. -/
  | firstItem
  /-- The name of a field or the end of an empty object. -/
  | firstKey
  /-- The name of a field. -/
  | key (before : List (String × Json))
  /-- The colon after the name of a field. -/
  | colon (before : List (String × Json)) (key : String)
  /-- Nothing: this value is complete. -/
  | done (value : Json)

/-- The reader between two lexemes. -/
structure Reader where
  stack : List Frame
  focus : Focus

namespace Reader

/-- The reader before the first lexeme. -/
def start : Reader := ⟨[], .value⟩

/-- One more array or object may be opened inside those that are open. -/
def hasRoom (limit : Option Nat) (stack : List Frame) : Bool :=
  match limit with
  | some most => stack.length < most
  | none => true

/-- The reader goes on inside an array or object that is opened, if there is room for it. -/
def enter (limit : Option Nat) (stack : List Frame) (opened : Container) (inside : Reader) :
    Except ReadFault Reader :=
  if hasRoom limit stack then .ok inside else .error (.tooDeep opened)

/-- A lexeme that begins a value. -/
def beginValue (limit : Option Nat) (stack : List Frame) : Lexeme → Except ReadFault Reader
  | .scalar value => .ok ⟨stack, .done value⟩
  | .string s => .ok ⟨stack, .done (.string s)⟩
  | .openArray => enter limit stack .array ⟨.items [] :: stack, .firstItem⟩
  | .openObject => enter limit stack .object ⟨stack, .firstKey⟩
  | _ => .error .malformed

/-- A lexeme after a complete value. -/
def afterValue (stack : List Frame) (value : Json) (lexeme : Lexeme) : Except ReadFault Reader :=
  match stack, lexeme with
  | .items before :: rest, .comma => .ok ⟨.items (value :: before) :: rest, .value⟩
  | .items before :: rest, .closeArray => .ok ⟨rest, .done (.array (value :: before).reverse)⟩
  | .field before key :: rest, .comma => .ok ⟨rest, .key (put key value before)⟩
  | .field before key :: rest, .closeObject => .ok ⟨rest, .done (.object (put key value before))⟩
  | _, _ => .error .malformed

/-- One lexeme. -/
def step (limit : Option Nat) (r : Reader) (lexeme : Lexeme) : Except ReadFault Reader :=
  match r.focus, lexeme with
  | .value, _ => beginValue limit r.stack lexeme
  -- only an array or object that has just been opened may be closed at once
  | .firstItem, .closeArray => .ok ⟨r.stack.tail, .done (.array [])⟩
  | .firstItem, _ => beginValue limit r.stack lexeme
  | .firstKey, .closeObject => .ok ⟨r.stack, .done (.object [])⟩
  | .firstKey, .string key => .ok ⟨r.stack, .colon [] key⟩
  | .key before, .string key => .ok ⟨r.stack, .colon before key⟩
  | .colon before key, .colon => .ok ⟨.field before key :: r.stack, .value⟩
  | .done value, _ => afterValue r.stack value lexeme
  | _, _ => .error .malformed

/-- Several lexemes. -/
def run (limit : Option Nat) (r : Reader) : List Lexeme → Except ReadFault Reader
  | [] => .ok r
  | lexeme :: rest =>
      match r.step limit lexeme with
      | .ok next => run limit next rest
      | .error fault => .error fault

theorem enter_eq_ok_iff {limit : Option Nat} {stack : List Frame} {opened : Container}
    {inside next : Reader} :
    enter limit stack opened inside = .ok next ↔ hasRoom limit stack = true ∧ inside = next := by
  unfold enter
  split <;> simp_all

/-- The value of a document that ends here, if it can. -/
def value? (r : Reader) : Option Json :=
  match r.stack, r.focus with
  | [], .done value => some value
  | _, _ => none

end Reader

/-! ## Documents -/

/-- The value of a document, read with a limit on the arrays and objects that are open at once. -/
def read (limit : Option Nat) (text : List Char) : Except ReadFault Json :=
  let (known, fault) := lexemes text
  match Reader.start.run limit known with
  | .error first => .error first
  | .ok r =>
      match fault, r.value? with
      | none, some value => .ok value
      | _, _ => .error .malformed

/-- The value of a document, if it is well formed, read without a limit. -/
def read? (text : List Char) : Option Json := (read none text).toOption

end DeskCalc.Json
