set_option autoImplicit false

/-! # Runs of digits

Numbers are written with `Nat.toDigits` and read with `Nat.ofDigitChars`. This file adds what
the formats of the library need around a run of digits: leading zeros up to a width, trailing
zeros taken away, the sign of an integer, and hexadecimal digits.
-/

namespace DeskCalc.Digits

/-- The run with zeros in front, up to the given width. -/
def padLeft (width : Nat) (run : List Char) : List Char :=
  List.replicate (width - run.length) '0' ++ run

/-- The run without the zeros at its end. -/
def trimZeros : List Char → List Char
  | [] => []
  | c :: cs =>
      match trimZeros cs with
      | [] => if c = '0' then [] else [c]
      | kept => c :: kept

/-- The decimal digits of an integer, after a minus sign if it is negative. -/
def ofInt (n : Int) : List Char :=
  if n < 0 then '-' :: Nat.toDigits 10 n.natAbs else Nat.toDigits 10 n.natAbs

/-- The hexadecimal digits of a number, in lower case, at least `width` of them. -/
def hex (width n : Nat) : List Char := padLeft width (Nat.toDigits 16 n)

/-- The value of a hexadecimal digit, in lower or upper case. -/
def hexValue? (c : Char) : Option Nat :=
  if c.isDigit then some (c.toNat - '0'.toNat)
  else if 'a' ≤ c ∧ c ≤ 'f' then some (c.toNat - 'a'.toNat + 10)
  else if 'A' ≤ c ∧ c ≤ 'F' then some (c.toNat - 'A'.toNat + 10)
  else none

theorem length_padLeft (width : Nat) (run : List Char) :
    (padLeft width run).length = max width run.length := by
  simp [padLeft]
  omega

/-- What is taken away is zeros only. -/
theorem exists_trimZeros_append (run : List Char) :
    ∃ k, trimZeros run ++ List.replicate k '0' = run := by
  induction run with
  | nil => exact ⟨0, rfl⟩
  | cons c cs ih =>
      obtain ⟨k, hk⟩ := ih
      cases h : trimZeros cs with
      | nil =>
          rw [h, List.nil_append] at hk
          by_cases hc : c = '0'
          · exact ⟨k + 1, by simp [trimZeros, h, hc, hk, List.replicate_succ]⟩
          · exact ⟨k, by simp [trimZeros, h, hc, hk]⟩
      | cons d ds =>
          rw [h] at hk
          exact ⟨k, by simpa [trimZeros, h] using hk⟩

/-- What is kept does not end in a zero. -/
theorem getLast?_trimZeros (run : List Char) : (trimZeros run).getLast? ≠ some '0' := by
  induction run with
  | nil => simp [trimZeros]
  | cons c cs ih =>
      unfold trimZeros
      split
      · split <;> simp [*]
      · rename_i kept hne
        cases hk : trimZeros cs with
        | nil => exact absurd hk hne
        | cons d ds => rwa [List.getLast?_cons_cons, ← hk]

end DeskCalc.Digits
