import DeskCalc.Double.Text
import DeskCalc.Json.Basic
import DeskCalc.Text.Quoted

set_option autoImplicit false

/-! # Writing JSON values

One printer writes a value in several styles. A style says how scalars are spelled and what
stands around the items of arrays and objects: `wire` writes a document on one line,
`indented` writes one item per line, and `literal` names a value in a message.
-/

namespace DeskCalc.Json

/-- A way of writing values. The depth given to the gaps counts the arrays and objects that
are open there. -/
structure Style where
  nullWord : List Char
  trueWord : List Char
  falseWord : List Char
  float : Double → List Char
  string : List Char → List Char
  afterKey : List Char
  beforeItem : Nat → List Char
  betweenItems : List Char
  beforeClose : Nat → List Char

mutual

/-- A value in a style, at a depth. -/
def print (style : Style) (depth : Nat) : Json → List Char
  | .null => style.nullWord
  | .bool true => style.trueWord
  | .bool false => style.falseWord
  | .int n => Digits.ofInt n
  | .float x => style.float x
  | .string s => style.string s.toList
  | .array [] => ['[', ']']
  | .array (item :: items) =>
      '[' :: (style.beforeItem (depth + 1) ++ (print style (depth + 1) item ++
        (printItems style (depth + 1) items ++ (style.beforeClose depth ++ [']']))))
  | .object [] => ['\x7b', '\x7d']
  | .object ((key, value) :: fields) =>
      '\x7b' :: (style.beforeItem (depth + 1) ++ (style.string key.toList ++ (style.afterKey ++
        (print style (depth + 1) value ++ (printFields style (depth + 1) fields ++
          (style.beforeClose depth ++ ['\x7d']))))))

/-- The items of an array after the first. -/
def printItems (style : Style) (depth : Nat) : List Json → List Char
  | [] => []
  | item :: items =>
      style.betweenItems ++ (style.beforeItem depth ++ (print style depth item ++
        printItems style depth items))

/-- The fields of an object after the first. -/
def printFields (style : Style) (depth : Nat) : List (String × Json) → List Char
  | [] => []
  | (key, value) :: fields =>
      style.betweenItems ++ (style.beforeItem depth ++ (style.string key.toList ++
        (style.afterKey ++ (print style depth value ++ printFields style depth fields))))

end

/-! ## Documents -/

/-- Four hexadecimal digits after the escape of a code unit. -/
def unitEscape (unit : Nat) : List Char := '\\' :: 'u' :: Digits.hex 4 unit

/-- A character of a document's string. Documents are printable ASCII: any other character is
escaped, as a surrogate pair if it lies above `U+FFFF`. -/
def escapeChar (c : Char) : List Char :=
  if c = '"' ∨ c = '\\' then ['\\', c]
  else if c = '\n' then ['\\', 'n']
  else if c = '\r' then ['\\', 'r']
  else if c = '\t' then ['\\', 't']
  else if c = '\x08' then ['\\', 'b']
  else if c = '\x0c' then ['\\', 'f']
  else if 0x20 ≤ c.toNat ∧ c.toNat < 0x7F then [c]
  else if c.toNat < 0x10000 then unitEscape c.toNat
  else
    unitEscape (0xD800 + (c.toNat - 0x10000) / 0x400) ++
      unitEscape (0xDC00 + (c.toNat - 0x10000) % 0x400)

/-- A string of a document. -/
def documentString (s : List Char) : List Char := '"' :: (s.flatMap escapeChar ++ ['"'])

/-- A floating number of a document. -/
def documentFloat : Double → List Char
  | .infinite true => "-Infinity".toList
  | .infinite false => "Infinity".toList
  | .nan => "NaN".toList
  | x => x.textChars

/-- Documents on one line, without blanks. -/
def Style.wire : Style where
  nullWord := "null".toList
  trueWord := "true".toList
  falseWord := "false".toList
  float := documentFloat
  string := documentString
  afterKey := [':']
  beforeItem _ := []
  betweenItems := [',']
  beforeClose _ := []

/-- A new line, indented by two blanks for each depth. -/
def newLine (depth : Nat) : List Char := '\n' :: List.replicate (2 * depth) ' '

/-- Documents with one item per line. -/
def Style.indented : Style :=
  { Style.wire with afterKey := [':', ' '], beforeItem := newLine, beforeClose := newLine }

/-- A document on one line. -/
def toWire (value : Json) : String := String.ofList (print .wire 0 value)

/-- A document with one item per line. -/
def toIndented (value : Json) : String := String.ofList (print .indented 0 value)

/-! ## Values in messages -/

/-- The style of values named in messages. -/
def Style.literal : Style where
  nullWord := "None".toList
  trueWord := "True".toList
  falseWord := "False".toList
  float := Double.textChars
  string := Quoted.encode
  afterKey := [':', ' ']
  beforeItem _ := []
  betweenItems := [',', ' ']
  beforeClose _ := []

/-- A value named in a message. -/
def toLiteral (value : Json) : String := String.ofList (print .literal 0 value)

end DeskCalc.Json
