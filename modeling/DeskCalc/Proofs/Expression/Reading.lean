import Mathlib.Data.List.TakeWhile
import DeskCalc.Proofs.Expression.Layout

set_option autoImplicit false

/-! # Literals of the scanner as decimals

The scanner reads a number one character at a time into a `Literal`. What it has then read is
the decimal of the whole run: the digits with the point left out, divided by ten for every digit
after the point.
-/

namespace DeskCalc

namespace Literal

/-- One more character of a number. -/
def push (l : Literal) (c : Char) : Literal := if c = '.' then l.pushPoint else l.pushDigit c

def pushAll (l : Literal) (run : List Char) : Literal := run.foldl push l

theorem pushAll_append (l : Literal) (run run' : List Char) :
    l.pushAll (run ++ run') = (l.pushAll run).pushAll run' := List.foldl_append

theorem push_point (l : Literal) : l.push '.' = l.pushPoint := rfl

theorem push_digit (l : Literal) {c : Char} (h : c.isDigit = true) : l.push c = l.pushDigit c := by
  refine if_neg ?_
  rintro rfl
  cases h

/-- The number of points read. -/
def points (l : Literal) : Nat := if l.places.isSome then 1 else 0

theorem points_eq_zero_iff {l : Literal} : l.points = 0 ↔ l.places = none := by
  unfold points
  cases l.places <;> simp

theorem points_signed (negative : Bool) : (signed negative).points = 0 := rfl

theorem points_le_one (l : Literal) : l.points ≤ 1 := by
  unfold points
  split <;> simp

/-- A point counts in the literal once it counts no more in what is still to be read. -/
theorem points_push {l : Literal} {c : Char} (hc : isNumeric c = true)
    (hpoint : c = '.' → l.places = none) (run : List Char) :
    (l.push c).points + run.count '.' = l.points + (c :: run).count '.' := by
  by_cases h : c = '.'
  · subst h
    have hnone : l.points = 0 := points_eq_zero_iff.2 (hpoint rfl)
    have hone : (l.push '.').points = 1 := rfl
    rw [List.count_cons_self, hnone, hone]
    omega
  · have hdigit : c.isDigit = true := by simpa [isNumeric, h] using hc
    have hsame : (l.push c).points = l.points := by
      rw [push_digit l hdigit]
      simp [points, pushDigit]
    rw [hsame, List.count_cons_of_ne h]

theorem pushAll_digits (l : Literal) {run : List Char} (h : ∀ c ∈ run, c.isDigit = true) :
    l.pushAll run =
      ⟨l.negative, Nat.ofDigitChars 10 run l.digits, l.places.map (· + run.length)⟩ := by
  induction run generalizing l with
  | nil => simp [pushAll]
  | cons c run ih =>
      have hrun := fun d hd => h d (List.mem_cons_of_mem c hd)
      show (l.push c).pushAll run = _
      rw [push_digit l (h c List.mem_cons_self), ih _ hrun, Nat.ofDigitChars_cons]
      simp [pushDigit, Function.comp_def, Nat.add_comm, Nat.add_left_comm]

end Literal

/-! ## Runs with at most one point -/

/-- A run of digits with at most one point is all digits, or digits on both sides of a point. -/
theorem run_cases {run : List Char} (h : ∀ c ∈ run, isNumeric c = true)
    (hcount : run.count '.' ≤ 1) :
    (∀ c ∈ run, c.isDigit = true) ∨
      ∃ whole places, run = whole ++ '.' :: places ∧
        (∀ c ∈ whole, c.isDigit = true) ∧ ∀ c ∈ places, c.isDigit = true := by
  have hdigit {c : Char} (hc : isNumeric c = true) (hne : c ≠ '.') : c.isDigit = true := by
    simpa [isNumeric, hne] using hc
  by_cases hmem : '.' ∈ run
  · obtain ⟨whole, places, rfl⟩ := List.append_of_mem hmem
    rw [List.count_append, List.count_cons_self] at hcount
    have hwhole : '.' ∉ whole := List.count_eq_zero.1 (by omega)
    have hplaces : '.' ∉ places := List.count_eq_zero.1 (by omega)
    refine Or.inr ⟨whole, places, rfl, fun c hc => ?_, fun c hc => ?_⟩
    · exact hdigit (h c (by simp [hc])) (fun heq => hwhole (heq ▸ hc))
    · exact hdigit (h c (by simp [hc])) (fun heq => hplaces (heq ▸ hc))
  · exact Or.inl fun c hc => hdigit (h c hc) (fun heq => hmem (heq ▸ hc))

theorem bne_point_of_isDigit {c : Char} (h : c.isDigit = true) : (c != '.') = true := by
  refine bne_iff_ne.2 ?_
  rintro rfl
  cases h

theorem decimalOf_digits {run : List Char} (h : ∀ c ∈ run, c.isDigit = true) :
    decimalOf run = ⟨Nat.ofDigitChars 10 run 0, 0⟩ := by
  have hrun := fun c hc => bne_point_of_isDigit (h c hc)
  have htake : run.takeWhile (· != '.') = run := List.takeWhile_eq_self_iff.2 hrun
  have hdrop : run.dropWhile (· != '.') = [] := List.dropWhile_eq_nil_iff.2 hrun
  unfold decimalOf
  rw [htake, hdrop]
  simp

theorem decimalOf_point {whole : List Char} (h : ∀ c ∈ whole, c.isDigit = true)
    (places : List Char) :
    decimalOf (whole ++ '.' :: places) =
      ⟨Nat.ofDigitChars 10 (whole ++ places) 0, -(places.length : Int)⟩ := by
  have hwhole := fun c hc => bne_point_of_isDigit (h c hc)
  unfold decimalOf
  rw [List.takeWhile_append_of_pos hwhole, List.dropWhile_append_of_pos hwhole]
  simp

/-- The decimal of a run is what the scanner has read after it. -/
theorem value_pushAll (negative : Bool) {run : List Char} (h : ∀ c ∈ run, isNumeric c = true)
    (hcount : run.count '.' ≤ 1) :
    ((Literal.signed negative).pushAll run).value =
      Double.ofDecimal negative (decimalOf run) := by
  rcases run_cases h hcount with hrun | ⟨whole, places, rfl, hwhole, hplaces⟩
  · rw [Literal.pushAll_digits _ hrun, decimalOf_digits hrun]
    rfl
  · rw [decimalOf_point hwhole, Literal.pushAll_append, Literal.pushAll_digits _ hwhole]
    show ((Literal.pushPoint _).pushAll places).value = _
    rw [Literal.pushAll_digits _ hplaces]
    simp [Literal.value, Literal.pushPoint, Literal.signed, Nat.ofDigitChars_append]

namespace Numeral

/-- A zero in front of a leading point does not change the decimal. -/
theorem decimalOf_paddedRun (n : Numeral) : decimalOf n.paddedRun = decimalOf n.run := by
  unfold paddedRun
  split
  · rename_i hhead
    obtain ⟨places, hrun⟩ := List.head?_eq_some_iff.1 hhead
    have hzero : ∀ c ∈ ['0'], c.isDigit = true := List.forall_mem_singleton.2 rfl
    have hpadded := decimalOf_point hzero places
    have hnone : ∀ c ∈ ([] : List Char), c.isDigit = true := List.forall_mem_nil _
    have hpoint := decimalOf_point hnone places
    rw [List.nil_append] at hpoint
    rw [hrun, hpoint, ← List.singleton_append, hpadded]
    simp [Nat.ofDigitChars_cons]
  · rfl

def negative (n : Numeral) : Bool := n.sign = some .minus

theorem value_eq (n : Numeral) : n.value = Double.ofDecimal n.negative (decimalOf n.run) := by
  unfold value magnitude negative
  rw [decimalOf_paddedRun]
  cases n.sign with
  | none => exact Double.mul_one _
  | some sign =>
      cases sign with
      | plus => exact Double.mul_one _
      | minus => exact (Double.mul_neg_one _).trans (Double.neg_ofDecimal false _)

/-- The value of a number is what the scanner has read after its run. -/
theorem value_read (n : Numeral) :
    ((Literal.signed n.negative).pushAll n.run).value = n.value := by
  rw [value_eq, value_pushAll n.negative n.isNumeric_of_mem n.count_point_le]

end Numeral

end DeskCalc
