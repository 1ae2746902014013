set_option autoImplicit false

/-! # Characters

Which characters are blank, what the capitals of a character are, and which code points are no
characters.
-/

namespace DeskCalc

/-! ## Blank characters

The white space of Unicode together with the four ASCII separators `U+001C` to `U+001F`.
Blanks may stand around the numbers and operators of an expression.
-/

/-- The inclusive ranges of blank characters, in order. -/
def blankRanges : List (Nat × Nat) :=
  [(0x0009, 0x000D), (0x001C, 0x0020), (0x0085, 0x0085), (0x00A0, 0x00A0), (0x1680, 0x1680),
   (0x2000, 0x200A), (0x2028, 0x2029), (0x202F, 0x202F), (0x205F, 0x205F), (0x3000, 0x3000)]

/-- The character is white space or a separator. -/
def isBlank (c : Char) : Bool :=
  blankRanges.any fun (first, last) => first ≤ c.toNat && c.toNat ≤ last

/-- The text without the characters of a class at either end. -/
def trimWhere (p : Char → Bool) (text : List Char) : List Char :=
  ((text.dropWhile p).reverse.dropWhile p).reverse

/-- The text without the blanks at either end. -/
def trimBlanks (text : List Char) : List Char := trimWhere isBlank text

/-! ## Capital letters

The capital form of a text, as far as it is ASCII. Besides `a` to `z` these are a few letters
with capitals of one to three ASCII letters; every other character is left as it is.
-/

/-- The capital form of a character. -/
def capital (c : Char) : List Char :=
  match c with
  | 'ß' => ['S', 'S']
  | 'ı' => ['I']
  | 'ſ' => ['S']
  | 'ﬀ' => ['F', 'F']
  | 'ﬁ' => ['F', 'I']
  | 'ﬂ' => ['F', 'L']
  | 'ﬃ' => ['F', 'F', 'I']
  | 'ﬄ' => ['F', 'F', 'L']
  | 'ﬅ' | 'ﬆ' => ['S', 'T']
  | _ => [c.toUpper]

/-- The capital form of a text. -/
def capitals (text : List Char) : List Char := text.flatMap capital

/-! ## Surrogates

The code points `U+D800` to `U+DFFF` are no characters. A high one followed by a low one stands
for a character above `U+FFFF`; a surrogate without its partner is read as the replacement
character `U+FFFD`.
-/

/-- The first halves of surrogate pairs. -/
def isHighSurrogate (n : Nat) : Bool := 0xD800 ≤ n && n < 0xDC00

/-- The second halves of surrogate pairs. -/
def isLowSurrogate (n : Nat) : Bool := 0xDC00 ≤ n && n < 0xE000

/-- The code point of a surrogate pair. -/
def pairValue (high low : Nat) : Nat := 0x10000 + (high - 0xD800) * 0x400 + (low - 0xDC00)

/-- The character of a code point; a surrogate gives the replacement character. -/
def charOfPoint (n : Nat) : Char :=
  if isHighSurrogate n || isLowSurrogate n then Char.ofNat 0xFFFD else Char.ofNat n

/-- The characters of a list of code points, surrogate pairs being joined. -/
def joinPairs : List Nat → List Char
  | [] => []
  | [n] => [charOfPoint n]
  | high :: low :: rest =>
      if isHighSurrogate high && isLowSurrogate low then
        Char.ofNat (pairValue high low) :: joinPairs rest
      else
        charOfPoint high :: joinPairs (low :: rest)

/-- No character is a surrogate. -/
theorem isSurrogate_toNat (c : Char) :
    isHighSurrogate c.toNat = false ∧ isLowSurrogate c.toNat = false := by
  have h : c.toNat < 0xD800 ∨ 0xDFFF < c.toNat ∧ c.toNat < 0x110000 := c.valid
  simp only [isHighSurrogate, isLowSurrogate, Bool.and_eq_false_iff, decide_eq_false_iff_not]
  omega

theorem charOfPoint_toNat (c : Char) : charOfPoint c.toNat = c := by
  simp [charOfPoint, isSurrogate_toNat c]

end DeskCalc
