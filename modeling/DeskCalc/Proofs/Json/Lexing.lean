import DeskCalc.Json.Printer
import DeskCalc.Proofs.Json.Numerals

set_option autoImplicit false

/-! # The lexemes that are written and read

What the printer writes for a scalar or a string is cut into that one lexeme, whatever follows it.
After a number, though, a character has to follow that no number can hold; in a document that is a
comma or the end of the line.

A string is read as a list of code points and joined into characters at its end. A character above
`U+FFFF` is written as two surrogates, and these are joined to that character again
(`joinPairs_flatMap_pointsOf`).
-/

namespace DeskCalc

/-! ## The code points of a written character -/

/-- The code points as which a character is written: itself, or a surrogate pair. -/
def pointsOf (c : Char) : List Nat :=
  if c.toNat < 0x10000 then [c.toNat]
  else [0xD800 + (c.toNat - 0x10000) / 0x400, 0xDC00 + (c.toNat - 0x10000) % 0x400]

theorem pointsOf_of_lt {c : Char} (h : c.toNat < 0x10000) : pointsOf c = [c.toNat] := if_pos h

theorem joinPairs_cons_toNat (c : Char) (points : List Nat) :
    joinPairs (c.toNat :: points) = c :: joinPairs points := by
  cases points with
  | nil => simp [joinPairs, charOfPoint_toNat]
  | cons n rest => simp [joinPairs, isSurrogate_toNat c, charOfPoint_toNat]

theorem joinPairs_pair {c : Char} (h : ¬ c.toNat < 0x10000) (points : List Nat) :
    joinPairs ((0xD800 + (c.toNat - 0x10000) / 0x400) ::
      (0xDC00 + (c.toNat - 0x10000) % 0x400) :: points) = c :: joinPairs points := by
  have hvalid : c.toNat < 0xD800 ∨ 0xDFFF < c.toNat ∧ c.toNat < 0x110000 := c.valid
  have hhigh : isHighSurrogate (0xD800 + (c.toNat - 0x10000) / 0x400) = true := by
    simp [isHighSurrogate]
    omega
  have hlow : isLowSurrogate (0xDC00 + (c.toNat - 0x10000) % 0x400) = true := by
    simp [isLowSurrogate]
    omega
  have hpair : pairValue (0xD800 + (c.toNat - 0x10000) / 0x400)
      (0xDC00 + (c.toNat - 0x10000) % 0x400) = c.toNat := by
    unfold pairValue
    omega
  rw [joinPairs, hhigh, hlow, Bool.and_self, if_pos rfl, hpair, Char.ofNat_toNat]

/-- The code points of written characters are joined to the characters. -/
theorem joinPairs_flatMap_pointsOf (text : List Char) :
    joinPairs (text.flatMap pointsOf) = text := by
  induction text with
  | nil => rfl
  | cons c rest ih =>
      rw [List.flatMap_cons]
      by_cases h : c.toNat < 0x10000
      · rw [pointsOf_of_lt h, List.singleton_append, joinPairs_cons_toNat, ih]
      · rw [pointsOf, if_neg h, List.cons_append, List.singleton_append, joinPairs_pair h, ih]

namespace Digits

theorem hexValue?_digitChar : ∀ d < 16, hexValue? (Nat.digitChar d) = some d := by decide

/-- Four hexadecimal digits are enough for a code unit. -/
theorem hex_four {unit : Nat} (h : unit < 0x10000) :
    hex 4 unit = [Nat.digitChar (unit / 16 / 16 / 16), Nat.digitChar (unit / 16 / 16 % 16),
      Nat.digitChar (unit / 16 % 16), Nat.digitChar (unit % 16)] := by
  have hsplit (n : Nat) (hn : 16 ≤ n) :
      Nat.toDigits 16 n = Nat.toDigits 16 (n / 16) ++ [Nat.digitChar (n % 16)] :=
    Nat.toDigits_of_base_le (by omega) hn
  have hlast (n : Nat) (hn : n < 16) : Nat.toDigits 16 n = [Nat.digitChar (n % 16)] := by
    rw [Nat.toDigits_of_lt_base hn, Nat.mod_eq_of_lt hn]
  have hzero (n : Nat) (hn : n = 0) : Nat.digitChar n = '0' := Nat.digitChar_eq_zero.2 hn
  unfold hex
  rcases Nat.lt_or_ge unit 16 with h1 | h1
  · rw [hlast unit h1, hzero (unit / 16 / 16 / 16) (by omega),
      hzero (unit / 16 / 16 % 16) (by omega), hzero (unit / 16 % 16) (by omega)]
    rfl
  rcases Nat.lt_or_ge (unit / 16) 16 with h2 | h2
  · rw [hsplit unit h1, hlast (unit / 16) h2, hzero (unit / 16 / 16 / 16) (by omega),
      hzero (unit / 16 / 16 % 16) (by omega)]
    rfl
  rcases Nat.lt_or_ge (unit / 16 / 16) 16 with h3 | h3
  · rw [hsplit unit h1, hsplit (unit / 16) h2, hlast (unit / 16 / 16) h3,
      hzero (unit / 16 / 16 / 16) (by omega)]
    rfl
  · have h4 : unit / 16 / 16 / 16 % 16 = unit / 16 / 16 / 16 := Nat.mod_eq_of_lt (by omega)
    rw [hsplit unit h1, hsplit (unit / 16) h2, hsplit (unit / 16 / 16) h3,
      hlast (unit / 16 / 16 / 16) (by omega), h4]
    rfl

end Digits

namespace Json.Lexeme

/-- In the given mode the scanner cuts a text into the given lexemes. -/
def Lexes (mode : Mode) (text : List Char) (lexemes : List Lexeme) : Prop :=
  ∀ pos, scanner.run pos mode text = .ok lexemes

theorem lexes_nil : Lexes .between [] [] := fun _ => rfl

/-- A character that puts out nothing. -/
theorem Lexes.cons {mode next : Mode} {c : Char} {text : List Char} {lexemes : List Lexeme}
    (hstep : step mode c = .ok ([], next)) (h : Lexes next text lexemes) :
    Lexes mode (c :: text) lexemes := fun pos =>
  Scanner.run_cons_eq_ok.2 ⟨[], next, lexemes, hstep, h (pos + 1), rfl⟩

/-- A character that puts out a lexeme. -/
theorem Lexes.put {mode next : Mode} {c : Char} {lexeme : Lexeme} {text : List Char}
    {lexemes : List Lexeme} (hstep : step mode c = .ok ([lexeme], next))
    (h : Lexes next text lexemes) : Lexes mode (c :: text) (lexeme :: lexemes) := fun pos =>
  Scanner.run_cons_eq_ok.2 ⟨[lexeme], next, lexemes, hstep, h (pos + 1), rfl⟩

/-- A punctuation mark. -/
theorem Lexes.mark {text : List Char} {lexemes : List Lexeme} (h : Lexes .between text lexemes)
    (c : Char) (lexeme : Lexeme) (hstep : betweenStep c = .ok ([lexeme], .between)) :
    Lexes .between (c :: text) (lexeme :: lexemes) :=
  h.put hstep

/-! ## Words -/

theorem Lexes.word {text : List Char} {lexemes : List Lexeme} (missing : List Char)
    (meaning : Json) (hne : missing ≠ []) (h : Lexes .between text lexemes) :
    Lexes (.word missing meaning) (missing ++ text) (.scalar meaning :: lexemes) := by
  induction missing with
  | nil => exact absurd rfl hne
  | cons c rest ih =>
      by_cases hrest : rest = []
      · subst hrest
        exact h.put (by simp [step])
      · exact (ih hrest).cons (by simp [step, hrest])

/-! ## Numbers -/

/-- Nothing follows that a number could hold. -/
def EndsValue (text : List Char) : Prop := ∀ c ∈ text.head?, c = ',' ∨ c = '\n'

theorem Lexes.pushAll {n m : Numeral} {part text : List Char} {lexemes : List Lexeme}
    (hpush : n.pushAll? part = some m) (h : Lexes (.number m) text lexemes) :
    Lexes (.number n) (part ++ text) lexemes := by
  induction part generalizing n with
  | nil =>
      obtain rfl : n = m := Option.some.inj hpush
      exact h
  | cons c rest ih =>
      rw [Numeral.pushAll?_cons, Option.bind_eq_some_iff] at hpush
      obtain ⟨next, hnext, hrest⟩ := hpush
      exact (ih hrest).cons (by simp [step, hnext])

/-- Neither a comma nor the end of the line belongs to a number. -/
theorem push?_eq_none (n : Numeral) {c : Char} (h : c = ',' ∨ c = '\n') : n.push? c = none := by
  obtain ⟨stage, _, _, _, _, _, _⟩ := n
  rcases h with rfl | rfl <;> cases stage <;> rfl

theorem Lexes.endNumber {n : Numeral} {value : Json} {text : List Char} {lexemes : List Lexeme}
    (hvalue : n.value? = some value) (hends : EndsValue text) (h : Lexes .between text lexemes) :
    Lexes (.number n) text (.scalar value :: lexemes) := by
  intro pos
  cases text with
  | nil =>
      have hnone : lexemes = [] := (Except.ok.inj (h pos)).symm
      rw [hnone]
      show finish (.number n) = _
      simp [finish, hvalue]
  | cons c rest =>
      obtain ⟨first, next, later, hstep, hrun, rfl⟩ := Scanner.run_cons_eq_ok.1 (h pos)
      have hc := hends c rfl
      have hword : ¬ (n.stage = .minus ∧ c = 'I') := by
        rcases hc with rfl | rfl <;> simp
      have hbetween : betweenStep c = .ok (first, next) := hstep
      refine Scanner.run_cons_eq_ok.2 ⟨.scalar value :: first, next, later, ?_, hrun, rfl⟩
      show step (.number n) c = _
      simp [step, push?_eq_none n hc, hword, hvalue, hbetween]

theorem betweenStep_digit {c : Char} (h : c.isDigit = true) :
    betweenStep c = .ok ([], .number ((Numeral.signed false).begin c)) := by
  have hne : ∀ d : Char, d.isDigit = false → c ≠ d := by
    rintro d hd rfl
    rw [h] at hd
    cases hd
  simp [betweenStep, h, hne ' ' rfl, hne '\t' rfl, hne '\n' rfl, hne '\r' rfl, hne '[' rfl,
    hne ']' rfl, hne '\x7b' rfl, hne '\x7d' rfl, hne ',' rfl, hne ':' rfl, hne '"' rfl,
    hne '-' rfl]

/-- A number stands in a document with its sign in front. -/
theorem Lexes.number {negative : Bool} {digits text : List Char} {value : Json}
    {lexemes : List Lexeme} (hspells : Numeral.Spells negative digits value)
    (hends : EndsValue text) (h : Lexes .between text lexemes) :
    Lexes .between (Double.signedText negative digits ++ text) (.scalar value :: lexemes) := by
  obtain ⟨n, hpush, hvalue⟩ := hspells
  have hnumber := (h.endNumber hvalue hends).pushAll hpush
  cases negative with
  | true => exact hnumber.cons rfl
  | false =>
      cases digits with
      | nil =>
          obtain rfl : Numeral.signed false = n := Option.some.inj hpush
          cases hvalue
      | cons c rest =>
          -- the first digit is no sign, so it is read before the scanner is within a number
          rw [Numeral.pushAll?_cons, Option.bind_eq_some_iff] at hpush
          obtain ⟨first, hfirst, hrest⟩ := hpush
          have hdigit : c.isDigit = true ∧ (Numeral.signed false).begin c = first := by
            simpa [Numeral.push?, Numeral.signed] using hfirst
          rw [← hdigit.2] at hrest
          exact ((h.endNumber hvalue hends).pushAll hrest).cons (betweenStep_digit hdigit.1)

theorem Lexes.int {n : Int} {text : List Char} {lexemes : List Lexeme}
    (hn : (Nat.toDigits 10 n.natAbs).length ≤ Numeral.maxLength) (hends : EndsValue text)
    (h : Lexes .between text lexemes) :
    Lexes .between (Digits.ofInt n ++ text) (.scalar (.int n) :: lexemes) := by
  have hspells := Numeral.spells_toDigits (decide (n < 0)) hn
  have hvalue : (if decide (n < 0) = true then -(n.natAbs : Int) else n.natAbs) = n := by
    simp only [decide_eq_true_eq]
    split <;> omega
  have htext : Digits.ofInt n =
      Double.signedText (decide (n < 0)) (Nat.toDigits 10 n.natAbs) := by
    simp [Digits.ofInt, Double.signedText]
  rw [hvalue] at hspells
  rw [htext]
  exact h.number hspells hends

theorem Lexes.float (x : Double) {text : List Char} {lexemes : List Lexeme}
    (hends : EndsValue text) (h : Lexes .between text lexemes) :
    Lexes .between (documentFloat x ++ text) (.scalar (.float x) :: lexemes) := by
  match x with
  | .finite s u hu =>
      have hspells := Numeral.spells_decimalText s (Double.shortest u)
      rw [Double.ofDecimal_shortest s hu] at hspells
      exact h.number hspells hends
  | .infinite false =>
      exact (h.word ['n', 'f', 'i', 'n', 'i', 't', 'y'] (.float (.infinite false))
        (List.cons_ne_nil _ _)).cons rfl
  | .infinite true =>
      -- the scanner is within a number when it meets the word
      have hsigned : Lexes (.number (Numeral.signed true)) ("Infinity".toList ++ text)
          (.scalar (.float (.infinite true)) :: lexemes) :=
        (h.word ['n', 'f', 'i', 'n', 'i', 't', 'y'] (.float (.infinite true))
          (List.cons_ne_nil _ _)).cons rfl
      exact hsigned.cons rfl
  | .nan =>
      exact (h.word ['a', 'N'] (.float .nan) (List.cons_ne_nil _ _)).cons rfl

/-! ## Strings -/

theorem Lexes.escape {letter meant : Char} (hletter : escaped? letter = some meant)
    {points : List Nat} {text : List Char} {lexemes : List Lexeme}
    (h : Lexes (.string (meant.toNat :: points)) text lexemes) :
    Lexes (.string points) ('\\' :: letter :: text) lexemes := by
  have hu : letter ≠ 'u' := by
    rintro rfl
    cases hletter
  have hmeant : Lexes (.escape points) (letter :: text) lexemes :=
    h.cons (by simp [step, hu, hletter])
  exact hmeant.cons rfl

theorem Lexes.plain {c : Char} (hquote : c ≠ '"') (hbackslash : c ≠ '\\') (hc : 0x20 ≤ c.toNat)
    {points : List Nat} {text : List Char} {lexemes : List Lexeme}
    (h : Lexes (.string (c.toNat :: points)) text lexemes) :
    Lexes (.string points) (c :: text) lexemes :=
  h.cons (by simp [step, hquote, hbackslash, Nat.not_lt.2 hc])

theorem Lexes.unitEscape {unit : Nat} (hunit : unit < 0x10000) {points : List Nat}
    {text : List Char} {lexemes : List Lexeme} (h : Lexes (.string (unit :: points)) text lexemes) :
    Lexes (.string points) (unitEscape unit ++ text) lexemes := by
  have hdigit {count value digit : Nat} (hd : digit < 16) (hcount : count ≠ 3)
      {later : List Char} (hlater : Lexes (.unicode points (count + 1) (16 * value + digit)) later
        lexemes) : Lexes (.unicode points count value) (Nat.digitChar digit :: later) lexemes :=
    hlater.cons (by simp [step, Digits.hexValue?_digitChar digit hd, hcount])
  have hlast {value digit : Nat} (hd : digit < 16) (hvalue : 16 * value + digit = unit) :
      Lexes (.unicode points 3 value) (Nat.digitChar digit :: text) lexemes := by
    rw [← hvalue] at h
    exact h.cons (by simp [step, Digits.hexValue?_digitChar digit hd])
  have hdigits : Lexes (.unicode points 0 0) (Digits.hex 4 unit ++ text) lexemes := by
    rw [Digits.hex_four hunit]
    refine hdigit (by omega) (by omega) (hdigit (by omega) (by omega) (hdigit (by omega) (by omega)
      (hlast (by omega) ?_)))
    omega
  have hletter : Lexes (.escape points) ('u' :: (Digits.hex 4 unit ++ text)) lexemes :=
    hdigits.cons rfl
  exact hletter.cons rfl

/-- A written character is read as its code points. -/
theorem Lexes.escapeChar (c : Char) {points : List Nat} {text : List Char} {lexemes : List Lexeme}
    (h : Lexes (.string ((pointsOf c).reverse ++ points)) text lexemes) :
    Lexes (.string points) (escapeChar c ++ text) lexemes := by
  unfold Json.escapeChar
  split_ifs with hquoted hn hr ht hb hf hprintable hlow
  · rcases hquoted with rfl | rfl
    · exact h.escape rfl
    · exact h.escape rfl
  · subst hn
    exact h.escape rfl
  · subst hr
    exact h.escape rfl
  · subst ht
    exact h.escape rfl
  · subst hb
    exact h.escape rfl
  · subst hf
    exact h.escape rfl
  · rw [pointsOf_of_lt (by omega)] at h
    exact h.plain (fun hc => hquoted (.inl hc)) (fun hc => hquoted (.inr hc)) hprintable.1
  · rw [pointsOf_of_lt hlow] at h
    exact h.unitEscape hlow
  · have hvalid : c.toNat < 0xD800 ∨ 0xDFFF < c.toNat ∧ c.toNat < 0x110000 := c.valid
    rw [pointsOf, if_neg hlow] at h
    rw [List.append_assoc]
    exact (h.unitEscape (by omega)).unitEscape (by omega)

theorem Lexes.escaped (s : List Char) {points : List Nat} {text : List Char}
    {lexemes : List Lexeme}
    (h : Lexes (.string ((s.flatMap pointsOf).reverse ++ points)) text lexemes) :
    Lexes (.string points) (s.flatMap Json.escapeChar ++ text) lexemes := by
  induction s generalizing points with
  | nil => exact h
  | cons c rest ih =>
      rw [List.flatMap_cons, List.reverse_append, List.append_assoc] at h
      rw [List.flatMap_cons, List.append_assoc]
      exact (ih h).escapeChar c

/-- A written string is read as the string. -/
theorem Lexes.string (s : String) {text : List Char} {lexemes : List Lexeme}
    (h : Lexes .between text lexemes) :
    Lexes .between (documentString s.toList ++ text) (.string s :: lexemes) := by
  have hclosing : Lexes (.string ((s.toList.flatMap pointsOf).reverse ++ [])) ('"' :: text)
      (.string s :: lexemes) := by
    refine h.put ?_
    simp [step, joinPairs_flatMap_pointsOf, String.ofList_toList]
  have hopening : Lexes .between ('"' :: (s.toList.flatMap Json.escapeChar ++ '"' :: text))
      (.string s :: lexemes) := (hclosing.escaped s.toList).cons rfl
  rw [documentString, List.cons_append, List.append_assoc]
  exact hopening

/-! ## Blanks -/

theorem Lexes.spaces (k : Nat) {text : List Char} {lexemes : List Lexeme}
    (h : Lexes .between text lexemes) :
    Lexes .between (List.replicate k ' ' ++ text) lexemes := by
  induction k with
  | zero => exact h
  | succ k ih =>
      rw [List.replicate_succ]
      exact ih.cons rfl

theorem Lexes.newLine (depth : Nat) {text : List Char} {lexemes : List Lexeme}
    (h : Lexes .between text lexemes) :
    Lexes .between (newLine depth ++ text) lexemes :=
  (h.spaces (2 * depth)).cons rfl

end Json.Lexeme

end DeskCalc
