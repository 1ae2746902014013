import DeskCalc.Double.Text
import DeskCalc.Json.Basic
import DeskCalc.Text.Characters
import DeskCalc.Text.Digits
import DeskCalc.Text.Scanner

set_option autoImplicit false

/-! # The lexemes of a JSON document

A document is first cut into punctuation marks, strings and the other scalar values. Besides
the numbers of the standard, the words `NaN`, `Infinity` and `-Infinity` are numbers. A number
with a point or an exponent is a double, any other an integer, which may have at most 4300
digits. Blanks are the space, the tab and the two line ends only.

Strings may hold any character except the controls below `U+0020`. Two escapes that form a
surrogate pair stand for one character; a surrogate without its partner is no character and is
read as `U+FFFD`. Names of fields that differ in nothing but such surrogates are therefore read
as one name: what is said of the fields of a document is said of documents without surrogates
that lack their partners.
-/

namespace DeskCalc.Json

/-- A piece of a document. -/
inductive Lexeme where
  | scalar (value : Json)
  | string (s : String)
  | openArray
  | closeArray
  | openObject
  | closeObject
  | comma
  | colon

namespace Lexeme

/-! ## Numbers -/

/-- How far a number has been read: its sign, its zero, its whole part, its point, its
fraction, the letter, the sign and the digits of its exponent. -/
inductive Stage where
  | minus
  | zero
  | whole
  | point
  | fraction
  | letter
  | letterSign
  | exponent
  deriving DecidableEq, Repr

/-- A number being read. `digits` holds the digits of the whole part and the fraction,
`length` counts those of the whole part and `places` those of the fraction. -/
structure Numeral where
  stage : Stage
  negative : Bool
  digits : Nat
  length : Nat
  places : Nat
  exponentNegative : Bool
  exponent : Nat
  deriving DecidableEq, Repr

namespace Numeral

/-- The greatest number of digits of an integer. -/
def maxLength : Nat := 4300

/-- A number of which nothing but the sign is known. -/
def signed (negative : Bool) : Numeral := ⟨.minus, negative, 0, 0, 0, false, 0⟩

/-- The value of a digit. -/
def digitValue (c : Char) : Nat := c.toNat - '0'.toNat

/-- The first digit of the whole part; after a zero no other can follow. -/
def begin (n : Numeral) (c : Char) : Numeral :=
  { n with
    stage := if c = '0' then .zero else .whole
    digits := digitValue c
    length := 1 }

/-- A number with one more character, if the character can belong to it. -/
def push? (n : Numeral) (c : Char) : Option Numeral :=
  match n.stage with
  | .minus => if c.isDigit then some (n.begin c) else none
  | .zero =>
      if c = '.' then some { n with stage := .point }
      else if c = 'e' ∨ c = 'E' then some { n with stage := .letter }
      else none
  | .whole =>
      if c.isDigit then
        some { n with digits := 10 * n.digits + digitValue c, length := n.length + 1 }
      else if c = '.' then some { n with stage := .point }
      else if c = 'e' ∨ c = 'E' then some { n with stage := .letter }
      else none
  | .point | .fraction =>
      if c.isDigit then
        some { n with
          stage := .fraction, digits := 10 * n.digits + digitValue c, places := n.places + 1 }
      else if n.stage = .fraction ∧ (c = 'e' ∨ c = 'E') then some { n with stage := .letter }
      else none
  | .letter =>
      if c.isDigit then some { n with stage := .exponent, exponent := digitValue c }
      else if c = '+' then some { n with stage := .letterSign }
      else if c = '-' then some { n with stage := .letterSign, exponentNegative := true }
      else none
  | .letterSign | .exponent =>
      if c.isDigit then
        some { n with stage := .exponent, exponent := 10 * n.exponent + digitValue c }
      else none

/-- The value of a number that ends here, if it can. -/
def value? (n : Numeral) : Option Json :=
  match n.stage with
  | .zero | .whole =>
      let value : Int := if n.negative then -(n.digits : Int) else n.digits
      if n.length ≤ maxLength then some (.int value) else none
  | .fraction | .exponent =>
      let exponent : Int := if n.exponentNegative then -(n.exponent : Int) else n.exponent
      some (.float (Double.ofScientific n.negative ⟨n.digits, exponent - n.places⟩))
  | _ => none

end Numeral

/-! ## Strings -/

/-- The character that a letter after a backslash stands for. -/
def escaped? : Char → Option Char
  | '"' => some '"'
  | '\\' => some '\\'
  | '/' => some '/'
  | 'b' => some '\x08'
  | 'f' => some '\x0c'
  | 'n' => some '\n'
  | 'r' => some '\r'
  | 't' => some '\t'
  | _ => none

/-! ## The scanner -/

/-- What the scanner of documents is doing: it stands between lexemes, has read the first part
of a fixed word, is within a number or within a string. The code points of a string are held
in reverse; in `unicode` some of four hexadecimal digits have been read. -/
inductive Mode where
  | between
  | word (missing : List Char) (meaning : Json)
  | number (n : Numeral)
  | string (points : List Nat)
  | escape (points : List Nat)
  | unicode (points : List Nat) (count value : Nat)

/-- A result of the scanner: the text is no document, or goes on. -/
abbrev Step := Except Unit (List Lexeme × Mode)

/-- The text is no document. -/
def malformed {α : Type} : Except Unit α := .error ()

/-- A character between lexemes. -/
def betweenStep (c : Char) : Step :=
  if c = ' ' ∨ c = '\t' ∨ c = '\n' ∨ c = '\r' then .ok ([], .between)
  else if c = '[' then .ok ([.openArray], .between)
  else if c = ']' then .ok ([.closeArray], .between)
  else if c = '\x7b' then .ok ([.openObject], .between)
  else if c = '\x7d' then .ok ([.closeObject], .between)
  else if c = ',' then .ok ([.comma], .between)
  else if c = ':' then .ok ([.colon], .between)
  else if c = '"' then .ok ([], .string [])
  else if c = '-' then .ok ([], .number (.signed true))
  else if c.isDigit then .ok ([], .number ((Numeral.signed false).begin c))
  else if c = 'n' then .ok ([], .word ['u', 'l', 'l'] .null)
  else if c = 't' then .ok ([], .word ['r', 'u', 'e'] (.bool true))
  else if c = 'f' then .ok ([], .word ['a', 'l', 's', 'e'] (.bool false))
  else if c = 'N' then .ok ([], .word ['a', 'N'] (.float .nan))
  else if c = 'I' then
    .ok ([], .word ['n', 'f', 'i', 'n', 'i', 't', 'y'] (.float (.infinite false)))
  else malformed

/-- One character. -/
def step (mode : Mode) (c : Char) : Step :=
  match mode with
  | .between => betweenStep c
  | .word [] _ => malformed
  | .word (expected :: missing) meaning =>
      if c = expected then
        if missing = [] then .ok ([.scalar meaning], .between) else .ok ([], .word missing meaning)
      else malformed
  | .number n =>
      match n.push? c with
      | some more => .ok ([], .number more)
      | none =>
          if n.stage = .minus ∧ c = 'I' then
            .ok ([], .word ['n', 'f', 'i', 'n', 'i', 't', 'y'] (.float (.infinite true)))
          else
            match n.value?, betweenStep c with
            | some value, .ok (lexemes, next) => .ok (.scalar value :: lexemes, next)
            | _, _ => malformed
  | .string points =>
      if c = '"' then .ok ([.string (String.ofList (joinPairs points.reverse))], .between)
      else if c = '\\' then .ok ([], .escape points)
      else if c.toNat < 0x20 then malformed
      else .ok ([], .string (c.toNat :: points))
  | .escape points =>
      if c = 'u' then .ok ([], .unicode points 0 0)
      else
        match escaped? c with
        | some meant => .ok ([], .string (meant.toNat :: points))
        | none => malformed
  | .unicode points count value =>
      match Digits.hexValue? c with
      | none => malformed
      | some digit =>
          let value := 16 * value + digit
          if count = 3 then .ok ([], .string (value :: points))
          else .ok ([], .unicode points (count + 1) value)

/-- The end of the document, which may end a number and nothing else. -/
def finish (mode : Mode) : Except Unit (List Lexeme) :=
  match mode with
  | .between => .ok []
  | .number n =>
      match n.value? with
      | some value => .ok [.scalar value]
      | none => malformed
  | _ => malformed

/-- The scanner of documents. -/
def scanner : Scanner Mode Lexeme Unit :=
  ⟨fun _ mode c => step mode c, fun _ mode => finish mode⟩

end Lexeme

/-- The lexemes of a document up to the first fault of the scanner, and that fault, if there is
one. -/
def lexemes (text : List Char) : List Lexeme × Option Unit := Lexeme.scanner.scan 0 .between text

end DeskCalc.Json
