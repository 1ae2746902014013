import DeskCalc.Expression.Evaluation

set_option autoImplicit false

/-! # The entry line

The expression that is being typed, which single edits keep well formed. An edit that would
break the expression or the limit on its length is ignored: every edit has a result, and it is
often the entry as it was.

Most decisions depend on the end of the text, so the functions here look at the reversed text:
its head is the last character, and `before` is what stands before that.
-/

namespace DeskCalc

/-! ## Edits by name

An edit is one logical key press: digits, a point, an operator, or one of the three commands.
By name, an edit is a kind and a value; only digits and operators use the value.
-/

/-- One key press. -/
inductive Edit where
  | digits (run : String)
  | point
  | operator (symbol : String)
  | backspace
  | reset
  | evaluate
  deriving DecidableEq, Repr

namespace Edit

/-- The name of the kind of an edit. -/
def kind : Edit → String
  | .digits _ => "digits"
  | .point => "dot"
  | .operator _ => "operator"
  | .backspace => "backspace"
  | .reset => "reset"
  | .evaluate => "evaluate"

/-- The digits or the operator, and the empty text for the other kinds. -/
def value : Edit → String
  | .digits run => run
  | .operator symbol => symbol
  | _ => ""

/-- The edit of the same kind with another value, if the kind uses one. -/
def withValue (value : String) : Edit → Edit
  | .digits _ => .digits value
  | .operator _ => .operator value
  | edit => edit

/-- The edit, with no value, whose kind has the given name, if there is such a kind. -/
def ofKind? (kind : String) : Option Edit :=
  [.digits "", .point, .operator "", .backspace, .reset, .evaluate].find?
    fun edit => edit.kind == kind

theorem kind_of_ofKind? {kind : String} {edit : Edit} (h : ofKind? kind = some edit) :
    edit.kind = kind := by
  have := List.find?_some h
  simpa using this

@[simp] theorem kind_withValue (value : String) (edit : Edit) :
    (edit.withValue value).kind = edit.kind := by
  cases edit <;> rfl

end Edit

/-! ## Entries -/

/-- A text being typed and the greatest length to which typing extends it. -/
structure Entry where
  text : List Char
  limit : Int
  deriving DecidableEq, Repr

namespace Entry

/-- The limit unless another is asked for. -/
def defaultLimit : Int := 64

/-- Nothing typed yet. -/
def blank (limit : Int) : Entry := ⟨[], limit⟩

/-- The text may grow by the given characters. -/
def fits (e : Entry) (more : List Char) : Bool :=
  (e.text.length : Int) + more.length ≤ e.limit

/-- The characters are added if they fit. -/
def append (e : Entry) (more : List Char) : Entry :=
  if e.fits more then { e with text := e.text ++ more } else e

/-! ### Signs and segments -/

/-- A minus is a sign, and no operator, at the start of the text and after an operator. The
argument is the text before the minus, reversed. -/
def standsAsSign : List Char → Bool
  | [] => true
  | c :: _ => isOperator c

/-- The last characters of a text, reversed, up to the most recent binary operator. -/
def takeSegment : List Char → List Char
  | [] => []
  | c :: before =>
      if isOperator c && !(c == '-' && standsAsSign before) then []
      else c :: takeSegment before

/-- The number being typed: what follows the most recent binary operator, its sign included. -/
def segment (text : List Char) : List Char := (takeSegment text.reverse).reverse

/-! ### Edits -/

/-- Digits are added all together or not at all. -/
def typeDigits (e : Entry) (run : List Char) : Entry :=
  if run.all Char.isDigit then e.append run else e

/-- A point begins a number as `0.`, and is added to a number that has none. -/
def typePoint (e : Entry) : Entry :=
  match e.text.reverse with
  | [] => e.append ['0', '.']
  | last :: _ =>
      if isOperator last then e.append ['0', '.']
      else if '.' ∈ segment e.text then e
      else e.append ['.']

/-- An operator follows a number and replaces an operator. A minus after another operator is
the sign of the next number; the next operator replaces both. A minus alone may begin the
text, at any limit. -/
def typeOperator (e : Entry) (op : Operator) : Entry :=
  match e.text.reverse with
  | [] => if op = .minus then { e with text := [op.char] } else e
  | last :: before =>
      if isOperator last then
        -- a minus after another operator is the sign of the next number
        if op = .minus ∧ last ≠ '-' then e.append [op.char]
        -- a sign goes together with the operator before it, and stays if it begins the text
        else if last = '-' ∧ standsAsSign before then
          if op = .minus ∨ before = [] then e
          else { e with text := (op.char :: before.tail).reverse }
        else { e with text := (op.char :: before).reverse }
      else e.append [op.char]

/-- The last character is taken away. -/
def backspace (e : Entry) : Entry := { e with text := e.text.dropLast }

/-- Everything is taken away. -/
def reset (e : Entry) : Entry := { e with text := [] }

/-- The entry after an edit. To evaluate does not change it. -/
def apply (e : Entry) : Edit → Entry
  | .digits run => e.typeDigits run.toList
  | .point => e.typePoint
  | .operator symbol =>
      match Operator.ofText? symbol.toList with
      | some op => e.typeOperator op
      | none => e
  | .backspace => e.backspace
  | .reset => e.reset
  | .evaluate => e

/-! ### Evaluation -/

/-- The text that is evaluated for an entry, and the outcome if that is already decided. One
trailing operator is forgiven, but a sign without its number is not. -/
def prepare (text : List Char) : List Char × Option Outcome :=
  match text.reverse with
  | [] => ([], some .empty)
  | last :: before =>
      if isOperator last then
        if before = [] then ([], some (.failure .noOperands))
        -- `5*-` is half a number, not one operator too many
        else if last = '-' ∧ standsAsSign before then (text, some (.failure .unfinishedSign))
        else (before.reverse, none)
      else (text, none)

end Entry

/-- The outcome of an entry's text, one trailing operator being forgiven. -/
def evaluateEntry (text : List Char) : Except Breakdown Outcome :=
  match Entry.prepare text with
  | (_, some outcome) => .ok outcome
  | (ready, none) => evaluate ready

/-- The text after one edit. -/
def editText (text : List Char) (edit : Edit) (limit : Int) : List Char :=
  ((Entry.mk text limit).apply edit).text

end DeskCalc
