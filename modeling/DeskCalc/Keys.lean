import DeskCalc.Entry
import DeskCalc.Expression.Token

set_option autoImplicit false

/-! # Keys

The keys of the calculator: what each of them does, and where its button stands.
-/

namespace DeskCalc.Keys

/-! ## Key bindings

Which edit a key stands for. A button is known by its label; a key of the keyboard by its name,
which decides if it is bound, and else by the character it types.
-/

/-- The operator shown by a glyph or by its own character. -/
def glyphOperator? (label : String) : Option Operator :=
  if label = "×" then some .times
  else if label = "÷" then some .over
  else Operator.ofText? label.toList

/-- The edit of the button with the given label, if it is a key of the calculator. A label of
several digits types all of them. -/
def ofLabel? (label : String) : Option Edit :=
  if label = "" then none
  else if label = "=" then some .evaluate
  else if label = "AC" then some .reset
  else if label = "C" then some .backspace
  else if label = "." then some .point
  else
    match glyphOperator? label with
    | some op => some (.operator op.symbol)
    | none => if label.toList.all Char.isDigit then some (.digits label) else none

/-- The keys that are bound by name. -/
def namedKeys : List (String × Edit) :=
  [("Return", .evaluate), ("KP_Enter", .evaluate), ("BackSpace", .backspace),
   ("Delete", .reset), ("Escape", .reset), ("KP_Decimal", .point),
   ("KP_Add", .operator "+"), ("KP_Subtract", .operator "-"),
   ("KP_Multiply", .operator "*"), ("KP_Divide", .operator "/"),
   ("KP_0", .digits "0"), ("KP_1", .digits "1"), ("KP_2", .digits "2"), ("KP_3", .digits "3"),
   ("KP_4", .digits "4"), ("KP_5", .digits "5"), ("KP_6", .digits "6"), ("KP_7", .digits "7"),
   ("KP_8", .digits "8"), ("KP_9", .digits "9")]

/-- The edit of a key that types the given text; the letter C clears everything. -/
def ofTyped? (typed : String) : Option Edit :=
  if typed = "\r" ∨ typed = "\n" then some .evaluate
  else if typed = "c" ∨ typed = "C" then some .reset
  else ofLabel? typed

/-- The edit of a key of the keyboard, by its name and what it types, if anything. -/
def ofKey? (typed : Option String) (name : String) : Option Edit :=
  match namedKeys.lookup name with
  | some edit => some edit
  | none => typed.bind ofTyped?

/-! ## The keypad

The buttons row by row, with the look of each and the cells of the grid it takes up.
-/

/-- The labels of the buttons, row by row. -/
def rows : List (List String) :=
  [["AC", "C", "÷", "×"],
   ["7", "8", "9", "-"],
   ["4", "5", "6", "+"],
   ["1", "2", "3", "="],
   ["0", "."]]

/-- The looks of a button. -/
inductive Style where
  | normal
  | operator
  | equals
  | mode
  | danger
  deriving DecidableEq, Repr

/-- The name of a look. -/
def Style.name : Style → String
  | .normal => "normal"
  | .operator => "operator"
  | .equals => "equals"
  | .mode => "mode"
  | .danger => "danger"

/-- The look of a button and the rows and columns it spans. -/
structure Place where
  style : Style
  rowSpan : Nat
  columnSpan : Nat
  deriving DecidableEq, Repr

/-- The place of the button with the given label. -/
def place (label : String) : Place :=
  if label = "=" then ⟨.equals, 2, 1⟩
  else if label = "0" then ⟨.normal, 1, 2⟩
  else if label = "AC" then ⟨.danger, 1, 1⟩
  else if label = "C" then ⟨.mode, 1, 1⟩
  else if (glyphOperator? label).isSome then ⟨.operator, 1, 1⟩
  else ⟨.normal, 1, 1⟩

end DeskCalc.Keys
