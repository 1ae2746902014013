import DeskCalc.Double.Text
import DeskCalc.Json.Lexeme
import DeskCalc.Proofs.Double.Decimal
import DeskCalc.Proofs.Text.Digits

set_option autoImplicit false

/-! # The numbers that are written and read

A number is written as a whole part, perhaps a point and a fraction, and perhaps an exponent.
`Spells` says that the scanner takes in a text as one number and gives it a certain value. Each of
the three parts is a run of digits, which the scanner takes in one digit at a time; the first two
together are the significand of the decimal that is spelled.

The text of a decimal therefore spells the double that the decimal is read as
(`spells_decimalText`), and the digits of a natural number spell the number
(`spells_toDigits`) as long as there are not too many of them.
-/

namespace DeskCalc

namespace Json.Lexeme.Numeral

open Digits

/-! ## The parts of a number -/

/-- A number with more characters, if all of them can belong to it. -/
def pushAll? (n : Numeral) (text : List Char) : Option Numeral := text.foldlM push? n

theorem pushAll?_cons (n : Numeral) (c : Char) (text : List Char) :
    n.pushAll? (c :: text) = (n.push? c).bind (·.pushAll? text) := rfl

theorem pushAll?_append (n : Numeral) (first second : List Char) :
    n.pushAll? (first ++ second) = (n.pushAll? first).bind (·.pushAll? second) := by
  simp only [pushAll?, List.foldlM_append]
  rfl

/-- A part of a number that takes in one digit at a time takes in a run of digits: `form` is the
number for each value and each length of what has been read of that part. -/
theorem pushAll?_digits (form : Nat → Nat → Numeral)
    (hpush : ∀ value length c, c.isDigit = true →
      (form value length).push? c = some (form (10 * value + digitValue c) (length + 1)))
    {run : List Char} (hrun : ∀ c ∈ run, c.isDigit = true) (value length : Nat) :
    (form value length).pushAll? run =
      some (form (Nat.ofDigitChars 10 run value) (length + run.length)) := by
  induction run generalizing value length with
  | nil => rfl
  | cons c cs ih =>
      have hrest := ih (fun d hd => hrun d (List.mem_cons_of_mem c hd))
        (10 * value + digitValue c) (length + 1)
      rw [pushAll?_cons, hpush value length c (hrun c List.mem_cons_self), Option.bind_some,
        hrest, Nat.ofDigitChars_cons, List.length_cons, Nat.add_assoc, Nat.add_comm 1]
      rfl

/-- What is known of a number before its exponent. -/
def unscaled (stage : Stage) (negative : Bool) (digits length places : Nat) : Numeral :=
  ⟨stage, negative, digits, length, places, false, 0⟩

/-- A whole part is read digit by digit, unless it is zero. -/
theorem pushAll?_leading {run : List Char} (h : Leading run) (negative : Bool) :
    (signed negative).pushAll? run =
      some (unscaled .whole negative (Nat.ofDigitChars 10 run 0) run.length 0) := by
  obtain ⟨c, cs, rfl⟩ := List.exists_cons_of_ne_nil h.ne_nil
  have hfirst : (signed negative).push? c =
      some (unscaled .whole negative (digitValue c) 1 0) := by
    have hdigit := h.digits c List.mem_cons_self
    have hzero : c ≠ '0' := fun hc => h.head (by rw [hc]; rfl)
    simp [push?, signed, begin, unscaled, hdigit, hzero]
  have hrest := pushAll?_digits (fun v l => unscaled .whole negative v l 0)
    (fun v l d hd => by simp [push?, unscaled, hd])
    (fun d hd => h.digits d (List.mem_cons_of_mem c hd)) (digitValue c) 1
  rw [pushAll?_cons, hfirst, Option.bind_some, hrest, Nat.ofDigitChars_cons,
    List.length_cons, Nat.add_comm 1, Nat.mul_zero, Nat.zero_add]
  rfl

/-- The whole part of a number: zero, or digits that do not begin with a zero. -/
inductive IsWhole : List Char → Stage → Prop where
  | zero : IsWhole ['0'] .zero
  | leading {run : List Char} (h : Leading run) : IsWhole run .whole

theorem pushAll?_whole {run : List Char} {stage : Stage} (h : IsWhole run stage)
    (negative : Bool) :
    (signed negative).pushAll? run =
      some (unscaled stage negative (Nat.ofDigitChars 10 run 0) run.length 0) := by
  cases h with
  | zero => rfl
  | leading h => exact pushAll?_leading h negative

/-- A point and the digits after it. -/
theorem pushAll?_fraction {run digits : List Char} {stage : Stage} (h : IsWhole run stage)
    (hdigits : ∀ c ∈ digits, c.isDigit = true) (hne : digits ≠ []) (negative : Bool) :
    (signed negative).pushAll? (run ++ '.' :: digits) =
      some (unscaled .fraction negative (Nat.ofDigitChars 10 (run ++ digits) 0) run.length
        digits.length) := by
  obtain ⟨d, ds, rfl⟩ := List.exists_cons_of_ne_nil hne
  have hpoint (v l : Nat) : (unscaled stage negative v l 0).push? '.' =
      some (unscaled .point negative v l 0) := by
    cases h <;> rfl
  have hfirst (v l : Nat) : (unscaled .point negative v l 0).push? d =
      some (unscaled .fraction negative (10 * v + digitValue d) l 1) := by
    simp [push?, unscaled, hdigits d List.mem_cons_self]
  have hrest := pushAll?_digits (fun v l => unscaled .fraction negative v run.length l)
    (fun v l c hc => by simp [push?, unscaled, hc])
    (fun c hc => hdigits c (List.mem_cons_of_mem d hc))
    (10 * Nat.ofDigitChars 10 run 0 + digitValue d) 1
  rw [pushAll?_append, pushAll?_whole h, Option.bind_some, pushAll?_cons, hpoint,
    Option.bind_some, pushAll?_cons, hfirst, Option.bind_some, hrest, Nat.ofDigitChars_append,
    Nat.ofDigitChars_cons, List.length_cons, Nat.add_comm 1]
  rfl

/-- The sign of an exponent. -/
def exponentSign (negative : Bool) : Char := if negative then '-' else '+'

/-- The letter, the sign and the digits of an exponent, after a number that may have one. -/
theorem pushAll?_exponent {run : List Char} (hrun : ∀ c ∈ run, c.isDigit = true) (hne : run ≠ [])
    {stage : Stage} (hstage : stage = .zero ∨ stage = .whole ∨ stage = .fraction)
    (negative : Bool) (digits length places : Nat) (below : Bool) :
    (unscaled stage negative digits length places).pushAll? ('e' :: exponentSign below :: run) =
      some ⟨.exponent, negative, digits, length, places, below, Nat.ofDigitChars 10 run 0⟩ := by
  obtain ⟨d, ds, rfl⟩ := List.exists_cons_of_ne_nil hne
  have hletter : (unscaled stage negative digits length places).push? 'e' =
      some (unscaled .letter negative digits length places) := by
    rcases hstage with rfl | rfl | rfl <;> rfl
  have hsign : (unscaled .letter negative digits length places).push? (exponentSign below) =
      some ⟨.letterSign, negative, digits, length, places, below, 0⟩ := by
    cases below <;> rfl
  have hfirst :
      (⟨.letterSign, negative, digits, length, places, below, 0⟩ : Numeral).push? d =
        some ⟨.exponent, negative, digits, length, places, below, digitValue d⟩ := by
    simp [push?, hrun d List.mem_cons_self]
  have hrest := pushAll?_digits
    (fun v _ => ⟨.exponent, negative, digits, length, places, below, v⟩)
    (fun v l c hc => by simp [push?, hc]) (fun c hc => hrun c (List.mem_cons_of_mem d hc))
    (digitValue d) 1
  rw [pushAll?_cons, hletter, Option.bind_some, pushAll?_cons, hsign, Option.bind_some,
    pushAll?_cons, hfirst, Option.bind_some, hrest, Nat.ofDigitChars_cons, Nat.mul_zero,
    Nat.zero_add]
  rfl

/-! ## Texts that spell a number -/

/-- After a sign, the whole text is taken in as one number, and that has the given value. -/
def Spells (negative : Bool) (text : List Char) (value : Json) : Prop :=
  ∃ n : Numeral, (signed negative).pushAll? text = some n ∧ n.value? = some value

/-- A number of not too many digits is spelled by them. -/
theorem spells_toDigits (negative : Bool) {m : Nat}
    (h : (Nat.toDigits 10 m).length ≤ maxLength) :
    Spells negative (Nat.toDigits 10 m) (.int (if negative then -(m : Int) else m)) := by
  have hdigits := Nat.ofDigitChars_ten_toDigits (n := m)
  by_cases hm : m = 0
  · subst hm
    cases negative <;> exact ⟨_, pushAll?_whole .zero _, rfl⟩
  · refine ⟨_, pushAll?_leading (leading_toDigits hm) negative, ?_⟩
    simp [value?, unscaled, h, hdigits]

/-- A whole part and a fraction. -/
theorem spells_fraction (negative : Bool) (digits : List Char) {run : List Char} {stage : Stage}
    (h : IsWhole run stage) (hdigits : ∀ c ∈ digits, c.isDigit = true) (hne : digits ≠ []) :
    Spells negative (run ++ '.' :: digits)
      (.float (Double.ofDecimal negative
        ⟨Nat.ofDigitChars 10 (run ++ digits) 0, -(digits.length : Int)⟩)) := by
  refine ⟨_, pushAll?_fraction h hdigits hne negative, ?_⟩
  simp [value?, unscaled, Double.ofScientific_eq]

/-- A whole part, perhaps a fraction, and an exponent. -/
theorem spells_exponent (negative : Bool) (digits : List Char) {run exponent : List Char}
    {stage : Stage} (h : IsWhole run stage) (hdigits : ∀ c ∈ digits, c.isDigit = true)
    (hexponent : ∀ c ∈ exponent, c.isDigit = true) (hne : exponent ≠ []) (below : Bool) :
    Spells negative
      (run ++ ((if digits = [] then [] else '.' :: digits) ++
        'e' :: exponentSign below :: exponent))
      (.float (Double.ofDecimal negative
        ⟨Nat.ofDigitChars 10 (run ++ digits) 0,
          (if below then -(Nat.ofDigitChars 10 exponent 0 : Int)
            else Nat.ofDigitChars 10 exponent 0) - digits.length⟩)) := by
  -- the number before the letter ends in its whole part or in its fraction
  obtain ⟨last, hlast, hbefore⟩ : ∃ last : Stage,
      (last = .zero ∨ last = .whole ∨ last = .fraction) ∧
      (signed negative).pushAll? (run ++ if digits = [] then [] else '.' :: digits) =
        some (unscaled last negative (Nat.ofDigitChars 10 (run ++ digits) 0) run.length
          digits.length) := by
    by_cases hnone : digits = []
    · subst hnone
      have hstage : stage = .zero ∨ stage = .whole ∨ stage = .fraction := by
        cases h <;> simp
      rw [if_pos rfl, List.append_nil]
      exact ⟨stage, hstage, pushAll?_whole h negative⟩
    · rw [if_neg hnone]
      exact ⟨.fraction, .inr (.inr rfl), pushAll?_fraction h hdigits hnone negative⟩
  have hend := pushAll?_exponent hexponent hne hlast negative
    (Nat.ofDigitChars 10 (run ++ digits) 0) run.length digits.length below
  refine ⟨⟨.exponent, negative, Nat.ofDigitChars 10 (run ++ digits) 0, run.length, digits.length,
    below, Nat.ofDigitChars 10 exponent 0⟩, ?_, ?_⟩
  · rw [← List.append_assoc, pushAll?_append, hbefore, Option.bind_some, hend]
  · simp [value?, Double.ofScientific_eq]

/-! ## The text of a decimal -/

theorem spells_positionalText (negative : Bool) {digits : List Char} (h : Leading digits)
    (point : Int) :
    Spells negative (Double.positionalText digits point)
      (.float (Double.ofDecimal negative
        ⟨Nat.ofDigitChars 10 digits 0, point - digits.length⟩)) := by
  have hlength := List.length_pos_iff.2 h.ne_nil
  unfold Double.positionalText
  dsimp only
  by_cases hpoint : point ≤ 0
  · -- zeros stand between the point and the digits
    have hspells := spells_fraction negative (List.replicate (-point).toNat '0' ++ digits) .zero
      (fun c hc => (List.mem_append.1 hc).elim (isDigit_of_mem_zeros c) (h.digits c))
      (List.append_ne_nil_of_right_ne_nil _ h.ne_nil)
    have hvalue : Nat.ofDigitChars 10 (['0'] ++ (List.replicate (-point).toNat '0' ++ digits)) 0 =
        Nat.ofDigitChars 10 digits 0 := by
      simp [Nat.ofDigitChars_append, Nat.ofDigitChars_cons]
    have hplaces : -((List.replicate (-point).toNat '0' ++ digits).length : Int) =
        point - digits.length := by
      rw [List.length_append, List.length_replicate]
      omega
    rw [hvalue, hplaces] at hspells
    rw [if_pos hpoint]
    exact hspells
  · rw [if_neg hpoint]
    obtain ⟨k, rfl⟩ := Int.eq_ofNat_of_zero_le (a := point) (by omega)
    rw [Int.toNat_natCast]
    rcases Nat.lt_or_ge k digits.length with hlt | hge
    · -- the point stands between the digits
      have hdrop : digits.drop k ≠ [] := by
        rw [← List.length_pos_iff, List.length_drop]
        omega
      have hspells := spells_fraction negative (digits.drop k)
        (.leading (h.take (k := k) (by omega)))
        (fun c hc => h.digits c (List.mem_of_mem_drop hc)) hdrop
      have hplaces : -((digits.drop k).length : Int) = k - digits.length := by
        rw [List.length_drop]
        omega
      rw [List.take_append_drop, hplaces] at hspells
      have hnone : k - digits.length = 0 := by omega
      rw [if_neg hdrop, hnone, List.replicate_zero, List.append_nil]
      exact hspells
    · -- zeros stand between the digits and the point, and one after it
      have hspells := spells_fraction negative ['0']
        (.leading (h.append (isDigit_of_mem_zeros (k := k - digits.length))))
        (isDigit_of_mem_zeros (k := 1)) (List.cons_ne_nil _ _)
      have hvalue : Nat.ofDigitChars 10
          (digits ++ List.replicate (k - digits.length) '0' ++ ['0']) 0 =
          Nat.ofDigitChars 10 digits 0 * pow10 (k - digits.length + 1) := by
        rw [List.append_assoc, ← List.replicate_succ', Nat.ofDigitChars_append,
          Nat.ofDigitChars_replicate_zero, Nat.mul_comm]
        rfl
      have hexponent : -((['0'] : List Char).length : Int) + ((k - digits.length + 1 : Nat) : Int) =
          k - digits.length := by
        rw [List.length_singleton]
        omega
      rw [hvalue, Double.ofDecimal_mul_pow10, hexponent] at hspells
      rw [if_pos (List.drop_of_length_le hge), List.take_of_length_le hge]
      exact hspells

theorem spells_scientificText (negative : Bool) {digits : List Char} (h : Leading digits)
    (exponent : Int) :
    Spells negative (Double.scientificText digits exponent)
      (.float (Double.ofDecimal negative
        ⟨Nat.ofDigitChars 10 digits 0, exponent + 1 - digits.length⟩)) := by
  obtain ⟨lead, rest, rfl⟩ := List.exists_cons_of_ne_nil h.ne_nil
  have hdigits : ∀ c ∈ padLeft 2 (Nat.toDigits 10 exponent.natAbs), c.isDigit = true :=
    fun c hc => (List.mem_append.1 hc).elim (isDigit_of_mem_zeros c) (isDigit_of_mem_toDigits c)
  have hne : padLeft 2 (Nat.toDigits 10 exponent.natAbs) ≠ [] :=
    List.append_ne_nil_of_right_ne_nil _ Nat.toDigits_ne_nil
  have hwhole : IsWhole [lead] .whole := .leading (h.take (k := 1) (by omega))
  have hspells := spells_exponent negative rest hwhole
    (fun c hc => h.digits c (List.mem_cons_of_mem _ hc)) hdigits hne (decide (exponent < 0))
  have hvalue : Nat.ofDigitChars 10 (padLeft 2 (Nat.toDigits 10 exponent.natAbs)) 0 =
      exponent.natAbs := by
    simp [padLeft, Nat.ofDigitChars_append]
  have hexponent : (if decide (exponent < 0) = true then -(exponent.natAbs : Int)
      else exponent.natAbs) - rest.length = exponent + 1 - (lead :: rest).length := by
    rw [List.length_cons]
    simp only [decide_eq_true_eq]
    split <;> omega
  rw [hvalue, hexponent] at hspells
  have hsign : exponentSign (decide (exponent < 0)) = if exponent < 0 then '-' else '+' := by
    simp [exponentSign]
  rw [hsign] at hspells
  exact hspells

/-- The text of a decimal spells the double that the decimal is read as. -/
theorem spells_decimalText (negative : Bool) (d : Decimal) :
    Spells negative (Double.decimalText d) (.float (Double.ofDecimal negative d)) := by
  obtain ⟨m, e⟩ := d
  unfold Double.decimalText
  dsimp only
  by_cases hm : m = 0
  · have hspells := spells_fraction negative ['0'] .zero (isDigit_of_mem_zeros (k := 1))
      (List.cons_ne_nil _ _)
    have hvalue : Nat.ofDigitChars 10 (['0'] ++ ['0']) 0 = 0 := rfl
    rw [hvalue, Double.ofDecimal_zero] at hspells
    rw [if_pos hm, hm, Double.ofDecimal_zero]
    exact hspells
  · obtain ⟨k, hk⟩ := exists_trimZeros_append (Nat.toDigits 10 m)
    have hleading := leading_toDigits hm
    rw [← hk] at hleading
    have htrimmed := hleading.of_append_zeros
    have hvalue : Nat.ofDigitChars 10 (trimZeros (Nat.toDigits 10 m)) 0 * pow10 k = m := by
      calc _ = Nat.ofDigitChars 10 (trimZeros (Nat.toDigits 10 m) ++ List.replicate k '0') 0 := by
            rw [Nat.ofDigitChars_append, Nat.ofDigitChars_replicate_zero, Nat.mul_comm]
            rfl
        _ = m := by rw [hk, Nat.ofDigitChars_ten_toDigits]
    have hlength : (trimZeros (Nat.toDigits 10 m)).length + k = (Nat.toDigits 10 m).length := by
      rw [← List.length_replicate (n := k) (a := '0'), ← List.length_append, hk]
    -- the zeros that are left out are in the exponent
    have hsame : Double.ofDecimal negative
          ⟨Nat.ofDigitChars 10 (trimZeros (Nat.toDigits 10 m)) 0,
            e + (Nat.toDigits 10 m).length - (trimZeros (Nat.toDigits 10 m)).length⟩ =
        Double.ofDecimal negative ⟨m, e⟩ := by
      have hexponent : e + ((Nat.toDigits 10 m).length : Int) -
          (trimZeros (Nat.toDigits 10 m)).length = e + k := by omega
      rw [hexponent, ← Double.ofDecimal_mul_pow10, hvalue]
    rw [if_neg hm, ← hsame]
    split
    · have hspells := spells_positionalText negative htrimmed
        (e + (Nat.toDigits 10 m).length - 1 + 1)
      rwa [Int.sub_add_cancel] at hspells ⊢
    · have hspells := spells_scientificText negative htrimmed
        (e + (Nat.toDigits 10 m).length - 1)
      rwa [Int.sub_add_cancel] at hspells

end Json.Lexeme.Numeral

end DeskCalc
