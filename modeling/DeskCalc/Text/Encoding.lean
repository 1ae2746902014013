import DeskCalc.Text.Characters

set_option autoImplicit false

/-! # Encodings

A document may come in any encoding of Unicode without saying which, if its first two
characters are ASCII: the zeros among its first bytes then tell how wide the units are and
which byte of a unit comes first. A text that was taken for UTF-8 is read again in the encoding
that its bytes tell.
-/

namespace DeskCalc

/-- Which byte of a unit comes first. -/
inductive ByteOrder where
  | bigEndian
  | littleEndian
  deriving DecidableEq, Repr

namespace ByteOrder

/-- A number from its two halves as they stand; `base` is one more than the greatest half. -/
def join (order : ByteOrder) (base first second : Nat) : Nat :=
  match order with
  | .bigEndian => base * first + second
  | .littleEndian => base * second + first

/-- Numbers from the halves of each, unless one half is left over. -/
def joinAll? (order : ByteOrder) (base : Nat) : List Nat → Option (List Nat)
  | [] => some []
  | [_] => none
  | first :: second :: rest => (joinAll? order base rest).map (order.join base first second :: ·)

end ByteOrder

/-- An encoding of Unicode. -/
inductive Encoding where
  | utf8
  | utf16 (order : ByteOrder)
  | utf32 (order : ByteOrder)
  deriving DecidableEq, Repr

namespace Encoding

/-- The encoding of a document of these bytes. -/
def ofBytes : List Nat → Encoding
  | [a, b] =>
      if a = 0 then .utf16 .bigEndian else if b = 0 then .utf16 .littleEndian else .utf8
  | a :: b :: c :: d :: _ =>
      if a = 0 then if b = 0 then .utf32 .bigEndian else .utf16 .bigEndian
      else if b = 0 then
        if c = 0 ∧ d = 0 then .utf32 .littleEndian else .utf16 .littleEndian
      else .utf8
  | _ => .utf8

/-- The bytes of a text in UTF-8. -/
def utf8Bytes (text : List Char) : List Nat :=
  (text.flatMap String.utf8EncodeChar).map UInt8.toNat

/-- The text of code points, unless one is too great to be any. -/
def ofPoints? (points : List Nat) : Option (List Char) :=
  if points.all (· ≤ 0x10FFFF) then some (joinPairs points) else none

/-- A text read again in the encoding that its bytes tell, if they can be read in it. -/
def reread? (text : List Char) : Option (List Char) :=
  let bytes := utf8Bytes text
  match ofBytes bytes with
  | .utf8 => some text
  | .utf16 order => (order.joinAll? 0x100 bytes).bind ofPoints?
  | .utf32 order =>
      ((order.joinAll? 0x100 bytes).bind (order.joinAll? 0x10000)).bind ofPoints?

end Encoding

end DeskCalc
