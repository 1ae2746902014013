import DeskCalc.Proofs.Expression.Scanning
import DeskCalc.Proofs.Expression.Terms

set_option autoImplicit false

/-! # Alternation does not end a list

Numbers and operators alternate in a list (`isAlternating`) if it is not empty, numbers stand at
the even places and operators at the odd ones. Nothing is said about its end: it may be an
operator. The reductions take an operand after every symbol, so for them the length matters, which
is odd if the list ends in a number.

A list of odd length never lacks an operand, and nor does what the multiplicative reduction leaves
of it (`returns_reduceProducts`, `returns_reduceSums`). One of even length lacks it at the end,
unless a fault has stopped the reduction before (`reduceProducts_concat`). The tokens of a text are
of odd length, because its scanner does not end after an operator.
-/

namespace DeskCalc

/-! ## The places of numbers -/

/-- Numbers stand at the even places, counted from zero, and operators at the odd ones. -/
def NumbersAtEven (tokens : List Token) : Prop :=
  ∀ (i : Nat) (t : Token), tokens[i]? = some t → (t.isNumber = true ↔ Even i)

theorem takeTurns_iff (numberNext : Bool) (tokens : List Token) :
    takeTurns numberNext tokens = true ↔
      ∀ (i : Nat) (t : Token), tokens[i]? = some t → (t.isNumber = numberNext ↔ Even i) := by
  induction tokens generalizing numberNext with
  | nil => simp [takeTurns]
  | cons first rest ih =>
      rw [takeTurns, Bool.and_eq_true, beq_iff_eq, ih (!numberNext)]
      constructor
      · rintro ⟨hfirst, hrest⟩ i t ht
        cases i with
        | zero =>
            have heq : first = t := by simpa using ht
            simp [← heq, hfirst]
        | succ i =>
            have hplace := hrest i t (by simpa using ht)
            rw [Nat.even_add_one, ← hplace, Bool.eq_not, not_not]
      · intro h
        constructor
        · simpa using h 0 first (by simp)
        · intro i t ht
          have hplace := h (i + 1) t (by simpa using ht)
          rw [Bool.eq_not]
          rw [Nat.even_add_one] at hplace
          exact not_iff_comm.1 hplace.symm

theorem isAlternating_iff (tokens : List Token) :
    isAlternating tokens = true ↔ tokens ≠ [] ∧ NumbersAtEven tokens := by
  unfold isAlternating NumbersAtEven
  rw [Bool.and_eq_true, takeTurns_iff]
  simp

/-! ## The additive reduction -/

section Reductions

variable {ops : Arithmetic}

theorem returns_foldSums (total : Double) {rest : List Token} (h : Even rest.length) :
    Returns (foldSums ops total rest) := by
  induction rest, h using pairs_induction generalizing total with
  | nil => simp [foldSums, Returns]
  | pair symbol operand rest _ ih =>
      rw [foldSums]
      cases ops.additive? symbol.symbol with
      | none => simp [Returns]
      | some step => exact ih (step total operand.value)

theorem returns_reduceSums {tokens : List Token} (h : Odd tokens.length) :
    Returns (reduceSums tokens ops) := by
  obtain ⟨first, rest, rfl, hrest⟩ := exists_cons_of_odd_length h
  have hbind : reduceSums (first :: rest) ops =
      foldSums ops first.value rest >>= fun total => ops.inRange total := by
    rw [reduceSums]
    cases foldSums ops first.value rest <;> rfl
  rw [hbind]
  exact (returns_foldSums first.value hrest).bind fun total => Arithmetic.returns_inRange total

/-! ## A symbol without an operand -/

theorem foldProducts_concat (current : Token) {rest : List Token} (h : Even rest.length)
    (symbol : Token) :
    foldProducts ops current (rest ++ [symbol]) =
      foldProducts ops current rest >>= fun _ => .error (.breakdown .missingOperand) := by
  induction rest, h using pairs_induction generalizing current with
  | nil => rfl
  | pair inner operand rest _ ih =>
      simp only [List.cons_append]
      cases hinner : inner.isMultiplicative with
      | true =>
          obtain ⟨step, hstep, -⟩ := ops.exists_multiplicative? hinner
          simp only [foldProducts_step hstep, ih, bind_assoc]
      | false =>
          simp only [foldProducts_ending hinner, ih, bind_assoc]
          rfl

/-- The last symbol of a list lacks an operand, if the reduction comes that far. -/
theorem reduceProducts_concat {tokens : List Token} (h : Odd tokens.length) (symbol : Token) :
    reduceProducts (tokens ++ [symbol]) ops =
      reduceProducts tokens ops >>= fun _ => .error (.breakdown .missingOperand) := by
  obtain ⟨first, rest, rfl, hrest⟩ := exists_cons_of_odd_length h
  exact foldProducts_concat first hrest symbol

theorem exists_concat_of_even_length {tokens : List Token} (hne : tokens ≠ [])
    (h : Even tokens.length) : ∃ front last, tokens = front ++ [last] ∧ Odd front.length := by
  rcases List.eq_nil_or_concat tokens with hnil | ⟨front, last, hconcat⟩
  · exact absurd hnil hne
  · rw [List.concat_eq_append] at hconcat
    refine ⟨front, last, hconcat, ?_⟩
    simpa [hconcat, Nat.even_add_one] using h

/-- A list of even length is never reduced. -/
theorem odd_length_of_reduceProducts {tokens reduced : List Token}
    (h : reduceProducts tokens ops = .ok reduced) : Odd tokens.length := by
  by_contra hodd
  have hne : tokens ≠ [] := by
    rintro rfl
    cases h
  obtain ⟨front, last, rfl, hfront⟩ :=
    exists_concat_of_even_length hne (Nat.not_odd_iff_even.1 hodd)
  rw [reduceProducts_concat hfront, bind_eq_ok] at h
  obtain ⟨_, _, hlacking⟩ := h
  cases hlacking

/-- A result that was there is lost where an operand is lacking. -/
theorem returns_bind_missingOperand_iff {result : Except Halt (List Token)} (h : Returns result) :
    Returns (result >>= fun _ => (.error (.breakdown .missingOperand) : Except Halt (List Token))) ↔
      ¬∃ reduced, result = .ok reduced := by
  cases result with
  | ok reduced => simp [Returns, bind, Except.bind]
  | error halt =>
      have hnone : ¬∃ reduced, (Except.error halt : Except Halt (List Token)) = .ok reduced := by
        simp
      exact iff_of_true h hnone

theorem not_returns_reduceProducts_iff {tokens : List Token} (hne : tokens ≠ []) :
    ¬Returns (reduceProducts tokens ops) ↔
      Even tokens.length ∧ ∃ reduced, reduceProducts tokens.dropLast ops = .ok reduced := by
  rcases Nat.even_or_odd tokens.length with heven | hodd
  · obtain ⟨front, last, rfl, hfront⟩ := exists_concat_of_even_length hne heven
    have hreturns : Returns (reduceProducts front ops) := returns_reduceProducts hfront
    rw [reduceProducts_concat hfront, returns_bind_missingOperand_iff hreturns,
      List.dropLast_concat, not_not]
    exact (and_iff_right heven).symm
  · have hnot : ¬Even tokens.length := Nat.not_even_iff_odd.2 hodd
    simp [hnot, returns_reduceProducts hodd]

end Reductions

/-! ## Lists that alternate -/

theorem Layout.even_length_restTokens (rest : List (Operator × Slot)) :
    Even (restTokens rest).length := by
  induction rest with
  | nil => exact Even.zero
  | cons link rest ih =>
      obtain ⟨op, slot⟩ := link
      rw [restTokens_cons]
      exact even_length_cons_cons.2 ih

theorem odd_length_of_tokenize {text : List Char} {tokens : List Token}
    (h : tokenize text = .ok tokens) : Odd tokens.length := by
  obtain ⟨l, -, rfl⟩ := tokenize_eq_ok_iff.1 h
  exact odd_length_cons.2 (Layout.even_length_restTokens l.rest)

/-- **Alternation.** A list alternates exactly if it is not empty, numbers stand at its even places
and operators at the odd ones; it may end in either. The tokens of a text do alternate, and end in a
number. The multiplicative reduction of a list that alternates lacks an operand exactly if the list
ends in an operator, with no fault before. What it leaves never lacks one in the additive
reduction. -/
theorem isAlternating_reductions (ops : Arithmetic) (tokens : List Token) :
    (isAlternating tokens = true ↔ tokens ≠ [] ∧ NumbersAtEven tokens) ∧
      (∀ text, tokenize text = .ok tokens → isAlternating tokens = true ∧ Odd tokens.length) ∧
      (isAlternating tokens = true →
        (¬Returns (reduceProducts tokens ops) ↔
          Even tokens.length ∧ ∃ reduced, reduceProducts tokens.dropLast ops = .ok reduced) ∧
        ∀ reduced, reduceProducts tokens ops = .ok reduced → Returns (reduceSums reduced ops)) := by
  refine ⟨isAlternating_iff tokens, ?_, ?_⟩
  · intro text htext
    refine ⟨?_, odd_length_of_tokenize htext⟩
    obtain ⟨l, -, rfl⟩ := tokenize_eq_ok_iff.1 htext
    exact isAlternating_tokens l
  · intro halternating
    obtain ⟨hne, -⟩ := (isAlternating_iff tokens).1 halternating
    refine ⟨not_returns_reduceProducts_iff hne, ?_⟩
    intro reduced hreduced
    have hodd := odd_length_of_reduceProducts hreduced
    obtain ⟨-, hlength⟩ := atOdd_reduceProducts hodd hreduced
    exact returns_reduceSums hlength

/-- The tokens of `1+2` are reduced to a sum, and `1/0+` alternates as well, with an operator at
its end. There the division is a fault before the operand is lacking. -/
theorem isAlternating_reductions_division :
    let sum : List Token := [.number (Double.ofInt 1), .operator "+", .number (Double.ofInt 2)]
    let endless : List Token :=
      [.number (Double.ofInt 1), .operator "/", .number (Double.zero false), .operator "+"]
    tokenize ['1', '+', '2'] = .ok sum ∧ isAlternating sum = true ∧
      reduceProducts sum = .ok sum ∧ Returns (reduceSums sum) ∧
      isAlternating endless = true ∧ Returns (reduceProducts endless) := by
  intro sum endless
  have htokens : tokenize ['1', '+', '2'] = .ok sum := rfl
  have hsum : reduceProducts sum = .ok sum := rfl
  have hendless : isAlternating endless = true := rfl
  have hfault : ¬∃ reduced, reduceProducts endless.dropLast = .ok reduced := by
    have hzero : reduceProducts endless.dropLast = .error (.fault .divisionByZero) := by
      decide +kernel
    simp [hzero]
  obtain ⟨-, htext, hreductions⟩ := isAlternating_reductions .double sum
  obtain ⟨halternating, -⟩ := htext _ htokens
  obtain ⟨-, -, hends⟩ := isAlternating_reductions .double endless
  obtain ⟨hlacking, -⟩ := hends hendless
  refine ⟨htokens, halternating, hsum, (hreductions halternating).2 sum hsum, hendless, ?_⟩
  by_contra hnot
  exact hfault (hlacking.1 hnot).2

/-- The list `1+` alternates. It is of even length and ends in an operator, and its reduction lacks
an operand. -/
theorem isAlternating_trailing :
    let tokens : List Token := [.number (Double.ofInt 1), .operator "+"]
    isAlternating tokens = true ∧ ¬Odd tokens.length ∧
      reduceProducts tokens = .error (.breakdown .missingOperand) := by
  refine ⟨rfl, ?_, rfl⟩
  simp [Nat.odd_iff]

end DeskCalc
