import Mathlib.Algebra.Ring.Parity
import DeskCalc.Expression.Evaluation

set_option autoImplicit false

/-! # The multiplicative reduction goes term by term

The reductions take lists of tokens in any order. They go by the place of a token and not by its
kind: at an odd place they look for a symbol, at an even one for a value. A token at an odd place
whose symbol is neither `*` nor `/` ends a term. The reduction passes it over, and nothing that
comes after it is folded into anything before it.

So a list can be cut at such a token, and its reduction is that of the parts, one after the other
(`foldProducts_append`). What is left at odd places are the tokens that ended a term, in their
order (`atOdd_foldProducts`), and a list with no others is left as it is (`foldProducts_eq_self`).
For all that a list has to have an odd length, or else its last symbol lacks an operand. After the
first token it is then a list of pairs, and the proofs go from pair to pair (`pairs_induction`).
-/

namespace DeskCalc

/-! ## Places in a list -/

theorem even_length_cons_cons {α : Type} {first second : α} {rest : List α} :
    Even (first :: second :: rest).length ↔ Even rest.length := by
  simp [Nat.even_add_one]

theorem odd_length_cons {α : Type} {first : α} {rest : List α} :
    Odd (first :: rest).length ↔ Even rest.length := by
  simp [Nat.odd_add_one]

/-- A list of even length is empty, or a pair and a list of even length. -/
@[elab_as_elim]
theorem pairs_induction {α : Type} {motive : (items : List α) → Even items.length → Prop}
    (nil : motive [] Even.zero)
    (pair : ∀ (first second : α) (rest : List α) (h : Even rest.length), motive rest h →
      motive (first :: second :: rest) (even_length_cons_cons.2 h)) :
    ∀ (items : List α) (h : Even items.length), motive items h
  | [], _ => nil
  | [_], h => absurd h (by simp)
  | first :: second :: rest, h =>
      have hrest := even_length_cons_cons.1 h
      pair first second rest hrest (pairs_induction nil pair rest hrest)

/-- The items at odd places, counted from zero. -/
def atOdd {α : Type} : List α → List α
  | _ :: item :: rest => item :: atOdd rest
  | _ => []

theorem atOdd_cons {α : Type} (first first' : α) (rest : List α) :
    atOdd (first :: rest) = atOdd (first' :: rest) := by
  cases rest <;> rfl

/-! ## What a reduction returns -/

/-- No operand is lacking: there is a result, or a fault of the expression. -/
def Returns {α : Type} (result : Except Halt α) : Prop :=
  ∀ breakdown, result ≠ .error (.breakdown breakdown)

theorem bind_eq_ok {α β : Type} {result : Except Halt α} {next : α → Except Halt β} {y : β} :
    result >>= next = .ok y ↔ ∃ x, result = .ok x ∧ next x = .ok y := by
  cases result <;> simp [bind, Except.bind]

theorem Returns.bind {α β : Type} {result : Except Halt α} {next : α → Except Halt β}
    (h : Returns result) (hnext : ∀ x, Returns (next x)) : Returns (result >>= next) := by
  intro breakdown
  cases result with
  | ok x => exact hnext x breakdown
  | error halt =>
      intro heq
      exact h breakdown (by simpa [Bind.bind, Except.bind] using heq)

/-! ## Steps -/

/-- The token has the symbol of a product or of a quotient. -/
def Token.isMultiplicative (t : Token) : Bool := t.symbol == "*" || t.symbol == "/"

variable {ops : Arithmetic}

theorem Arithmetic.returns_inRange (x : Double) : Returns (ops.inRange x) := by
  intro breakdown
  unfold inRange
  split <;> simp

/-- A multiplicative symbol has a step, which returns. -/
theorem Arithmetic.exists_multiplicative? (ops : Arithmetic) {t : Token}
    (h : t.isMultiplicative = true) :
    ∃ step, ops.multiplicative? t.symbol = some step ∧ ∀ x y, Returns (step x y) := by
  rcases Bool.or_eq_true _ _ ▸ h with htimes | hover
  · refine ⟨ops.product, ?_, fun x y => returns_inRange _⟩
    simp [multiplicative?, eq_of_beq htimes]
  · refine ⟨ops.quotient, ?_, fun x y => ?_⟩
    · simp [multiplicative?, eq_of_beq hover]
    · unfold quotient
      split
      · simp [Returns]
      · exact returns_inRange _

theorem Arithmetic.multiplicative?_eq_none {t : Token} (h : t.isMultiplicative = false) :
    ops.multiplicative? t.symbol = none := by
  obtain ⟨htimes, hover⟩ := Bool.or_eq_false_iff.1 h
  have htimes' : t.symbol ≠ "*" := by simpa using htimes
  have hover' : t.symbol ≠ "/" := by simpa using hover
  simp [multiplicative?, htimes', hover']

/-- A multiplicative symbol folds its operand into the current token. -/
theorem foldProducts_step {symbol : Token} {step : Double → Double → Except Halt Double}
    (h : ops.multiplicative? symbol.symbol = some step) (current operand : Token)
    (rest : List Token) :
    foldProducts ops current (symbol :: operand :: rest) =
      step current.value operand.value >>= fun x => foldProducts ops (.number x) rest := by
  rw [foldProducts, h]
  dsimp only
  cases step current.value operand.value <;> rfl

/-- Any other symbol ends the term of the current token. -/
theorem foldProducts_ending {symbol : Token} (h : symbol.isMultiplicative = false)
    (current operand : Token) (rest : List Token) :
    foldProducts ops current (symbol :: operand :: rest) =
      foldProducts ops operand rest >>= fun reduced => .ok (current :: symbol :: reduced) := by
  rw [foldProducts, Arithmetic.multiplicative?_eq_none h]
  cases foldProducts ops operand rest <;> rfl

/-! ## Pairs of a symbol and its operand -/

theorem returns_foldProducts (current : Token) {rest : List Token} (h : Even rest.length) :
    Returns (foldProducts ops current rest) := by
  induction rest, h using pairs_induction generalizing current with
  | nil => simp [foldProducts, Returns]
  | pair symbol operand rest _ ih =>
      cases hsymbol : symbol.isMultiplicative with
      | true =>
          obtain ⟨step, hstep, hreturns⟩ := ops.exists_multiplicative? hsymbol
          rw [foldProducts_step hstep]
          exact (hreturns _ _).bind fun x => ih (.number x)
      | false =>
          rw [foldProducts_ending hsymbol]
          exact (ih operand).bind fun reduced => by simp [Returns]

/-- A token that ends a term splits the reduction of a list. -/
theorem foldProducts_append (current : Token) {a : List Token} (h : Even a.length) {o : Token}
    (ho : o.isMultiplicative = false) (b : List Token) :
    foldProducts ops current (a ++ o :: b) = do
      let front ← foldProducts ops current a
      let back ← reduceProducts b ops
      return front ++ o :: back := by
  induction a, h using pairs_induction generalizing current with
  | nil =>
      cases b with
      | nil => rfl
      | cons operand rest => exact foldProducts_ending ho current operand rest
  | pair symbol operand rest _ ih =>
      simp only [List.cons_append]
      cases hsymbol : symbol.isMultiplicative with
      | true =>
          obtain ⟨step, hstep, -⟩ := ops.exists_multiplicative? hsymbol
          simp only [foldProducts_step hstep, ih, bind_assoc]
      | false =>
          simp only [foldProducts_ending hsymbol, ih, bind_assoc]
          rfl

/-- What is left at odd places are the tokens that ended a term. -/
theorem atOdd_foldProducts {current : Token} {rest reduced : List Token} (h : Even rest.length)
    (hreduced : foldProducts ops current rest = .ok reduced) :
    atOdd reduced = (atOdd (current :: rest)).filter (!·.isMultiplicative) ∧
      Odd reduced.length := by
  induction rest, h using pairs_induction generalizing current reduced with
  | nil =>
      cases hreduced
      simp [atOdd]
  | pair symbol operand rest _ ih =>
      cases hsymbol : symbol.isMultiplicative with
      | true =>
          obtain ⟨step, hstep, -⟩ := ops.exists_multiplicative? hsymbol
          rw [foldProducts_step hstep, bind_eq_ok] at hreduced
          obtain ⟨x, -, hx⟩ := hreduced
          obtain ⟨hplaces, hlength⟩ := ih hx
          refine ⟨?_, hlength⟩
          -- the new number stands at an even place, as the operand did
          rw [hplaces, atOdd_cons (.number x) operand]
          simp [atOdd, hsymbol]
      | false =>
          rw [foldProducts_ending hsymbol, bind_eq_ok] at hreduced
          obtain ⟨back, hback, hcons⟩ := hreduced
          cases hcons
          obtain ⟨hplaces, hlength⟩ := ih hback
          constructor
          · simp [atOdd, hplaces, hsymbol]
          · simpa [Nat.odd_add_one] using hlength

/-- A list in which every symbol ends a term is left as it is. -/
theorem foldProducts_eq_self {current : Token} {rest : List Token} (h : Even rest.length)
    (hending : ∀ t ∈ atOdd (current :: rest), t.isMultiplicative = false) :
    foldProducts ops current rest = .ok (current :: rest) := by
  induction rest, h using pairs_induction generalizing current with
  | nil => rfl
  | pair symbol operand rest _ ih =>
      have hsymbol := hending symbol (by simp [atOdd])
      have hback : foldProducts ops operand rest = .ok (operand :: rest) := by
        refine ih ?_
        intro t ht
        exact hending t (by simp [atOdd, ht])
      rw [foldProducts_ending hsymbol, hback]
      rfl

/-! ## The reduction of a list -/

theorem exists_cons_of_odd_length {α : Type} {items : List α} (h : Odd items.length) :
    ∃ first rest, items = first :: rest ∧ Even rest.length := by
  cases items with
  | nil => simp at h
  | cons first rest => exact ⟨first, rest, rfl, odd_length_cons.1 h⟩

section OddLength

variable {tokens : List Token}

theorem returns_reduceProducts (h : Odd tokens.length) : Returns (reduceProducts tokens ops) := by
  obtain ⟨first, rest, rfl, hrest⟩ := exists_cons_of_odd_length h
  exact returns_foldProducts first hrest

theorem reduceProducts_append (h : Odd tokens.length) {o : Token}
    (ho : o.isMultiplicative = false) (more : List Token) :
    reduceProducts (tokens ++ o :: more) ops = do
      let front ← reduceProducts tokens ops
      let back ← reduceProducts more ops
      return front ++ o :: back := by
  obtain ⟨first, rest, rfl, hrest⟩ := exists_cons_of_odd_length h
  exact foldProducts_append first hrest ho more

theorem atOdd_reduceProducts (h : Odd tokens.length) {reduced : List Token}
    (hreduced : reduceProducts tokens ops = .ok reduced) :
    atOdd reduced = (atOdd tokens).filter (!·.isMultiplicative) ∧ Odd reduced.length := by
  obtain ⟨first, rest, rfl, hrest⟩ := exists_cons_of_odd_length h
  exact atOdd_foldProducts hrest hreduced

theorem reduceProducts_eq_self (h : Odd tokens.length)
    (hending : ∀ t ∈ atOdd tokens, t.isMultiplicative = false) :
    reduceProducts tokens ops = .ok tokens := by
  obtain ⟨first, rest, rfl, hrest⟩ := exists_cons_of_odd_length h
  exact foldProducts_eq_self hrest hending

end OddLength

/-- **Term by term.** The multiplicative reduction of a list of odd length, whatever its tokens,
returns. A token whose symbol is neither `*` nor `/` cuts off what comes after it: with both, the
list fails as it fails alone, else as the rest fails, and else the two results are put together.
In a result, which is of odd length, the tokens at odd places are those of the list whose symbol is
neither `*` nor `/`; reducing it once more changes nothing. -/
theorem reduceProducts_termwise (ops : Arithmetic) {tokens : List Token} (h : Odd tokens.length) :
    Returns (reduceProducts tokens ops) ∧
      (∀ o : Token, o.isMultiplicative = false → ∀ rest : List Token,
        reduceProducts (tokens ++ o :: rest) ops = do
          let front ← reduceProducts tokens ops
          let back ← reduceProducts rest ops
          return front ++ o :: back) ∧
      ∀ reduced, reduceProducts tokens ops = .ok reduced →
        atOdd reduced = (atOdd tokens).filter (!·.isMultiplicative) ∧ Odd reduced.length ∧
          reduceProducts reduced ops = .ok reduced := by
  refine ⟨returns_reduceProducts h, fun o ho rest => reduceProducts_append h ho rest, ?_⟩
  intro reduced hreduced
  obtain ⟨hplaces, hlength⟩ := atOdd_reduceProducts h hreduced
  -- the symbols that are left have all ended a term before
  have hending : ∀ t ∈ atOdd reduced, t.isMultiplicative = false := by
    intro t ht
    rw [hplaces, List.mem_filter] at ht
    simpa using ht.2
  exact ⟨hplaces, hlength, reduceProducts_eq_self hlength hending⟩

/-- An operator stands in the place of the first number and counts as zero, and the symbol after
the factor is no operator at all. -/
theorem reduceProducts_termwise_illOrdered :
    let front : List Token := [.operator "+", .operator "*", .number (Double.ofInt 2)]
    Odd front.length ∧ (Token.operator "?").isMultiplicative = false ∧
      reduceProducts front = .ok [.number (Double.zero false)] ∧
      reduceProducts (front ++ .operator "?" :: [.operator "*"]) =
        .ok [.number (Double.zero false), .operator "?", .operator "*"] ∧
      reduceProducts [.number (Double.zero false)] = .ok [.number (Double.zero false)] := by
  intro front
  have hodd : Odd front.length := ⟨1, rfl⟩
  have hsymbol : (Token.operator "?").isMultiplicative = false := rfl
  have hfront : reduceProducts front = .ok [.number (Double.zero false)] := by decide +kernel
  obtain ⟨-, hsplit, hagain⟩ := reduceProducts_termwise .double hodd
  obtain ⟨-, -, hsame⟩ := hagain _ hfront
  refine ⟨hodd, hsymbol, hfront, ?_, hsame⟩
  rw [hsplit _ hsymbol, hfront]
  rfl

end DeskCalc
