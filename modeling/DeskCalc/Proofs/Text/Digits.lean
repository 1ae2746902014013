import Mathlib.Data.List.Basic
import DeskCalc.Rounding
import DeskCalc.Text.Digits

set_option autoImplicit false

/-! # Facts on runs of digits

The digits of a number do not begin with a zero unless they are that zero alone. Zeros in front of
a run do not change its value and zeros at its end scale it, so the digits after a point may be
filled up to a width and trimmed without a change of what they stand for
(`Digits.fraction_spec`).
-/

namespace DeskCalc

/-! ## Leading digits -/

/-- The digits of a number that is not zero: there is a first one, and it is not `0`. -/
structure Digits.Leading (run : List Char) : Prop where
  digits : ∀ c ∈ run, c.isDigit = true
  ne_nil : run ≠ []
  head : run.head? ≠ some '0'

namespace Digits

theorem isDigit_of_mem_toDigits {n : Nat} : ∀ c ∈ Nat.toDigits 10 n, c.isDigit = true :=
  fun _ h => Nat.isDigit_of_mem_toDigits (by omega) (by omega) h

theorem isDigit_of_mem_zeros {k : Nat} : ∀ c ∈ List.replicate k '0', c.isDigit = true := by
  intro c hc
  rw [List.eq_of_mem_replicate hc]
  rfl

/-- The decimal digits of a number do not begin with a zero. -/
theorem leading_toDigits {n : Nat} (h : n ≠ 0) : Leading (Nat.toDigits 10 n) := by
  refine ⟨isDigit_of_mem_toDigits, Nat.toDigits_ne_nil, ?_⟩
  induction n using Nat.strongRecOn with
  | ind n ih =>
      rcases Nat.lt_or_ge n 10 with hlt | hge
      · rw [Nat.toDigits_of_lt_base hlt]
        simpa using h
      · rw [Nat.toDigits_of_base_le (by omega) hge,
          List.head?_append_of_ne_nil _ Nat.toDigits_ne_nil]
        exact ih (n / 10) (by omega) (by omega)

/-- Zeros at the end may go. -/
theorem Leading.of_append_zeros {run : List Char} {k : Nat}
    (h : Leading (run ++ List.replicate k '0')) : Leading run := by
  have hne : run ≠ [] := by
    rintro rfl
    cases k with
    | zero => exact h.ne_nil rfl
    | succ k => exact h.head rfl
  have hhead := h.head
  rw [List.head?_append_of_ne_nil _ hne] at hhead
  exact ⟨fun c hc => h.digits c (List.mem_append_left _ hc), hne, hhead⟩

theorem Leading.append {run more : List Char} (h : Leading run)
    (hmore : ∀ c ∈ more, c.isDigit = true) : Leading (run ++ more) := by
  have hhead : (run ++ more).head? ≠ some '0' := by
    rw [List.head?_append_of_ne_nil _ h.ne_nil]
    exact h.head
  refine ⟨fun c hc => ?_, List.append_ne_nil_of_left_ne_nil h.ne_nil more, hhead⟩
  exact (List.mem_append.1 hc).elim (h.digits c) (hmore c)

theorem Leading.take {run : List Char} (h : Leading run) {k : Nat} (hk : 0 < k) :
    Leading (run.take k) := by
  obtain ⟨c, cs, rfl⟩ := List.exists_cons_of_ne_nil h.ne_nil
  obtain ⟨k, rfl⟩ := Nat.exists_eq_succ_of_ne_zero (Nat.ne_of_gt hk)
  exact ⟨fun d hd => h.digits d (List.mem_of_mem_take hd), List.cons_ne_nil _ _, h.head⟩

/-! ## The value of a run -/

/-- Every further digit multiplies the bound by ten. -/
theorem ofDigitChars_lt {run : List Char} (h : ∀ c ∈ run, c.isDigit = true) (start : Nat) :
    Nat.ofDigitChars 10 run start < (start + 1) * pow10 run.length := by
  induction run generalizing start with
  | nil => simp
  | cons c run ih =>
      have hdigit : 48 ≤ c.toNat ∧ c.toNat ≤ 57 := Char.isDigit_iff_toNat.1 (h c List.mem_cons_self)
      have hrest := ih (fun d hd => h d (List.mem_cons_of_mem c hd))
        (10 * start + (c.toNat - '0'.toNat))
      have hzero : '0'.toNat = 48 := rfl
      have hstep : 10 * start + (c.toNat - '0'.toNat) + 1 ≤ 10 * (start + 1) := by omega
      have hscale : pow10 (c :: run).length = 10 * pow10 run.length := by
        rw [List.length_cons, pow10_succ, Nat.mul_comm]
      rw [Nat.ofDigitChars_cons, hscale]
      calc Nat.ofDigitChars 10 run (10 * start + (c.toNat - '0'.toNat))
          < (10 * start + (c.toNat - '0'.toNat) + 1) * pow10 run.length := hrest
        _ ≤ 10 * (start + 1) * pow10 run.length := Nat.mul_le_mul_right _ hstep
        _ = (start + 1) * (10 * pow10 run.length) := by ac_rfl

/-! ## Digits after a point -/

theorem isDigit_of_mem_padLeft {width : Nat} {run : List Char}
    (h : ∀ c ∈ run, c.isDigit = true) : ∀ c ∈ padLeft width run, c.isDigit = true := by
  intro c hc
  exact (List.mem_append.1 hc).elim (isDigit_of_mem_zeros c) (h c)

theorem isDigit_of_mem_trimZeros {run : List Char} (h : ∀ c ∈ run, c.isDigit = true) :
    ∀ c ∈ trimZeros run, c.isDigit = true := by
  intro c hc
  obtain ⟨k, hk⟩ := exists_trimZeros_append run
  refine h c ?_
  rw [← hk]
  exact List.mem_append_left _ hc

theorem trimZeros_replicate (k : Nat) : trimZeros (List.replicate k '0') = [] := by
  induction k with
  | zero => rfl
  | succ k ih => rw [List.replicate_succ, trimZeros, ih, if_pos rfl]

theorem ofDigitChars_padLeft (width : Nat) (run : List Char) :
    Nat.ofDigitChars 10 (padLeft width run) 0 = Nat.ofDigitChars 10 run 0 := by
  rw [padLeft, Nat.ofDigitChars_append, Nat.ofDigitChars_replicate_zero, Nat.mul_zero]

theorem ofDigitChars_append_zeros (run : List Char) (k : Nat) :
    Nat.ofDigitChars 10 (run ++ List.replicate k '0') 0 = pow10 k * Nat.ofDigitChars 10 run 0 := by
  rw [Nat.ofDigitChars_append, Nat.ofDigitChars_replicate_zero]
  rfl

/-- The digits of a fraction of `10^width`, which may be zero. -/
def fraction (width n : Nat) : List Char := trimZeros (padLeft width (Nat.toDigits 10 n))

theorem isDigit_of_mem_fraction {width n : Nat} : ∀ c ∈ fraction width n, c.isDigit = true :=
  isDigit_of_mem_trimZeros (isDigit_of_mem_padLeft isDigit_of_mem_toDigits)

theorem getLast?_fraction (width n : Nat) : (fraction width n).getLast? ≠ some '0' :=
  getLast?_trimZeros _

@[simp] theorem fraction_zero (width : Nat) : fraction width 0 = [] := by
  have hzeros : padLeft width ['0'] = List.replicate (width - 1 + 1) '0' := by
    show List.replicate (width - 1) '0' ++ List.replicate 1 '0' = _
    exact List.replicate_append_replicate
  rw [fraction, Nat.toDigits_zero, hzeros, trimZeros_replicate]

/-- The zeros that are filled in and the zeros that are trimmed leave a fraction what it is. -/
theorem fraction_spec {width n : Nat} (h : n < pow10 width) :
    (fraction width n).length ≤ width ∧
      Nat.ofDigitChars 10 (fraction width n) 0 * pow10 width =
        n * pow10 (fraction width n).length := by
  by_cases hn : n = 0
  · rw [hn, fraction_zero]
    exact ⟨Nat.zero_le _, by simp⟩
  have hwidth : 0 < width := by
    refine Nat.pos_of_ne_zero ?_
    rintro rfl
    rw [pow10_zero] at h
    omega
  obtain ⟨k, hk⟩ := exists_trimZeros_append (padLeft width (Nat.toDigits 10 n))
  have hdigits : (Nat.toDigits 10 n).length ≤ width :=
    (Nat.length_toDigits_le_iff (by omega) hwidth).2 h
  have hlength : (fraction width n).length + k = width := by
    have hsame := congrArg List.length hk
    rw [List.length_append, List.length_replicate, length_padLeft] at hsame
    rw [fraction, hsame]
    omega
  have hvalue : pow10 k * Nat.ofDigitChars 10 (fraction width n) 0 = n := by
    have hsame := congrArg (Nat.ofDigitChars 10 · 0) hk
    rwa [ofDigitChars_append_zeros, ofDigitChars_padLeft, Nat.ofDigitChars_ten_toDigits] at hsame
  refine ⟨by omega, ?_⟩
  calc Nat.ofDigitChars 10 (fraction width n) 0 * pow10 width
      = Nat.ofDigitChars 10 (fraction width n) 0 *
          (pow10 (fraction width n).length * pow10 k) := by rw [← pow10_add, hlength]
    _ = pow10 k * Nat.ofDigitChars 10 (fraction width n) 0 *
          pow10 (fraction width n).length := by ac_rfl
    _ = n * pow10 (fraction width n).length := by rw [hvalue]

end Digits

end DeskCalc
