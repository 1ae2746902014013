import DeskCalc.Proofs.Expression.Alternation
import DeskCalc.Proofs.Expression.Precedence

set_option autoImplicit false

/-! # To subtract a number is to add its negative

In front of a digit or a point, a binary `-` can also be written `+-`. A `-` is binary if what
stands before it is an expression (`Layout.tokenize_before_iff`). All tokens but two stay the same:
the operator, and the number after it, which is negated (`tokenize_minus`).

The multiplicative reduction goes through the term of that number with partial results that differ
in their sign. No test of a step sees the sign, and products and quotients keep it, so the term has
two opposite values, or both reductions stop at the same step (`foldProducts_neg`). The additive
reduction subtracts the one or adds the other, which is the same, signs of zeros included
(`reduceSums_minus`). A fault holds the result that was out of range, so two faults may differ in
its sign. Their kind is the same.
-/

namespace DeskCalc

/-! ## Reductions that agree -/

/-- The kind of fault at which a reduction stops, if it stops at a fault. -/
def Halt.kind? : Halt → Option FaultKind
  | .fault f => some f.kind
  | .breakdown _ => none

/-- Two reductions have related results, or both stop, at faults of one kind. -/
inductive Agree {α : Type} (R : α → α → Prop) : Except Halt α → Except Halt α → Prop where
  | ok {x x' : α} (h : R x x') : Agree R (.ok x) (.ok x')
  | error {halt halt' : Halt} (h : halt.kind? = halt'.kind?) : Agree R (.error halt) (.error halt')

namespace Agree

variable {α β : Type} {R : α → α → Prop} {S : β → β → Prop}

theorem refl (h : ∀ x, R x x) (result : Except Halt α) : Agree R result result := by
  cases result with
  | ok x => exact .ok (h x)
  | error halt => exact .error rfl

theorem bind {result result' : Except Halt α} {next next' : α → Except Halt β}
    (h : Agree R result result') (hnext : ∀ x x', R x x' → Agree S (next x) (next' x')) :
    Agree S (result >>= next) (result' >>= next') := by
  cases h with
  | ok h => exact hnext _ _ h
  | error h => exact .error h

end Agree

/-! ## The sign through a term -/

theorem inRange_neg (x : Double) :
    Agree (fun y y' => y' = y.neg) (Arithmetic.double.inRange x)
      (Arithmetic.double.inRange x.neg) := by
  have hfinite : Arithmetic.double.isFinite x.neg = Arithmetic.double.isFinite x := x.isFinite_neg
  unfold Arithmetic.inRange
  rw [hfinite]
  split
  · exact .ok rfl
  · exact .error rfl

/-- The sign of the number that a step takes is that of its result, and changes nothing else. -/
theorem multiplicative?_neg {symbol : String} {step : Double → Double → Except Halt Double}
    (h : Arithmetic.double.multiplicative? symbol = some step) (x y : Double) :
    Agree (fun z z' => z' = z.neg) (step x y) (step x.neg y) := by
  unfold Arithmetic.multiplicative? at h
  split at h
  · cases h
    have hmul : Arithmetic.double.mul x.neg y = (Arithmetic.double.mul x y).neg := x.neg_mul y
    unfold Arithmetic.product
    rw [hmul]
    exact inRange_neg _
  · split at h
    · cases h
      have hdiv : Arithmetic.double.div x.neg y = (Arithmetic.double.div x y).neg := x.neg_div y
      unfold Arithmetic.quotient
      rw [hdiv]
      -- the divisor is the same, and so is the test whether it counts as zero
      split
      · exact .error rfl
      · exact inRange_neg _
    · cases h

/-- The lists are the same but for the sign of the number they begin with. -/
def NegatedFirst (tokens tokens' : List Token) : Prop :=
  ∃ x rest, tokens = .number x :: rest ∧ tokens' = .number x.neg :: rest

theorem foldProducts_neg (x : Double) {rest : List Token} (h : Even rest.length) :
    Agree NegatedFirst (foldProducts .double (.number x) rest)
      (foldProducts .double (.number x.neg) rest) := by
  induction rest, h using pairs_induction generalizing x with
  | nil => exact .ok ⟨x, [], rfl, rfl⟩
  | pair symbol operand rest _ ih =>
      cases hsymbol : symbol.isMultiplicative with
      | true =>
          obtain ⟨step, hstep, -⟩ := Arithmetic.double.exists_multiplicative? hsymbol
          rw [foldProducts_step hstep, foldProducts_step hstep]
          refine (multiplicative?_neg hstep x operand.value).bind ?_
          rintro y y' rfl
          exact ih y
      | false =>
          -- the term is over, and what follows does not depend on it
          rw [foldProducts_ending hsymbol, foldProducts_ending hsymbol]
          refine (Agree.refl (fun _ => rfl) (foldProducts .double operand rest)).bind ?_
          rintro reduced reduced' rfl
          exact .ok ⟨x, symbol :: reduced, rfl, rfl⟩

/-! ## The sum -/

theorem foldSums_append {ops : Arithmetic} (total : Double) {front : List Token}
    (h : Even front.length) (more : List Token) :
    foldSums ops total (front ++ more) =
      foldSums ops total front >>= fun subtotal => foldSums ops subtotal more := by
  induction front, h using pairs_induction generalizing total with
  | nil => rfl
  | pair symbol operand rest _ ih =>
      simp only [List.cons_append, foldSums]
      cases ops.additive? symbol.symbol with
      | none => rfl
      | some step => exact ih (step total operand.value)

theorem reduceSums_minus {front : List Token} (h : Odd front.length) (x : Double)
    (more : List Token) :
    reduceSums (front ++ .ofOperator .minus :: .number x :: more) =
      reduceSums (front ++ .ofOperator .plus :: .number x.neg :: more) := by
  have hstep (total : Double) :
      foldSums .double total (.ofOperator .minus :: .number x :: more) =
        foldSums .double total (.ofOperator .plus :: .number x.neg :: more) := by
    rw [foldSums_additive .double rfl, foldSums_additive .double rfl]
    rfl
  obtain ⟨first, rest, rfl, hrest⟩ := exists_cons_of_odd_length h
  simp only [List.cons_append, reduceSums, foldSums_append first.value hrest, hstep]

theorem reduceTokens_eq_bind (tokens : List Token) :
    reduceTokens tokens = reduceProducts tokens >>= fun reduced => reduceSums reduced := by
  unfold reduceTokens
  cases reduceProducts tokens <;> rfl

theorem reduceTokens_minus {front : List Token} (h : Odd front.length) (x : Double)
    {rest : List Token} (hrest : Even rest.length) :
    Agree (· = ·) (reduceTokens (front ++ .ofOperator .minus :: .number x :: rest))
      (reduceTokens (front ++ .ofOperator .plus :: .number x.neg :: rest)) := by
  have hminus : (Token.ofOperator .minus).isMultiplicative = false := rfl
  have hplus : (Token.ofOperator .plus).isMultiplicative = false := rfl
  simp only [reduceTokens_eq_bind, reduceProducts_append h hminus, reduceProducts_append h hplus,
    bind_assoc, pure_bind]
  -- what fails before the operator fails first in both
  cases hfront : reduceProducts front with
  | error halt => exact .error rfl
  | ok reduced =>
      obtain ⟨-, hodd⟩ := atOdd_reduceProducts h hfront
      refine (foldProducts_neg x hrest).bind ?_
      rintro term term' ⟨y, more, rfl, rfl⟩
      rw [reduceSums_minus hodd]
      exact .refl (fun _ => rfl) _

/-! ## The text -/

/-- A number that begins with a digit or a point can be given a sign. -/
theorem Slot.exists_negated {slot : Slot} {c : Char} {text more : List Char}
    (hc : isNumeric c = true) (h : slot.text ++ text = c :: more) :
    ∃ slot' : Slot, slot'.text ++ text = '-' :: c :: more ∧
      slot'.numeral.value = slot.numeral.value.neg := by
  obtain ⟨⟨blanks, hblanks⟩, numeral, after⟩ := slot
  cases blanks with
  | cons blank blanks =>
      cases h
      rw [not_isNumeric_of_isBlank (hblanks c List.mem_cons_self)] at hc
      cases hc
  | nil =>
      cases hsign : numeral.sign with
      | some sign =>
          have hhead : sign.char = c := by
            simp only [Slot.text, Numeral.text, Numeral.signChars, hsign] at h
            exact (List.cons.inj h).1
          cases sign <;> (subst hhead; cases hc)
      | none =>
          refine ⟨⟨noBlanks, { numeral with sign := some .minus }, after⟩, ?_, ?_⟩
          · rw [← h]
            simp [Slot.text, Numeral.text, Numeral.signChars, hsign, noBlanks, Sign.char]
          · simp [Numeral.value_eq, Numeral.negative, hsign, Double.neg_ofDecimal]

namespace Layout

theorem restText_append (front back : List (Operator × Slot)) :
    restText (front ++ back) = restText front ++ restText back := List.flatMap_append

theorem restTokens_append (front back : List (Operator × Slot)) :
    restTokens (front ++ back) = restTokens front ++ restTokens back := List.flatMap_append

theorem endsNumber_restText_append (front : List (Operator × Slot)) (op : Operator)
    (more : List Char) : EndsNumber (restText front ++ op.char :: more) := by
  intro c hc
  cases front with
  | nil =>
      cases hc
      exact ⟨op, rfl⟩
  | cons link front =>
      obtain ⟨o, slot⟩ := link
      rw [restText_cons] at hc
      cases hc
      exact ⟨o, rfl⟩

/-- Where a text goes on with an operator, so does its derivation. -/
theorem rest_eq_of_restText {front rest : List (Operator × Slot)} {op : Operator}
    {more : List Char} (h : restText rest = restText front ++ op.char :: more) :
    ∃ slot back, rest = front ++ (op, slot) :: back := by
  induction front generalizing rest with
  | nil =>
      cases rest with
      | nil => cases h
      | cons link back =>
          obtain ⟨o, slot⟩ := link
          rw [restText_cons] at h
          have ho : o = op := Operator.char_injective (List.cons.inj h).1
          exact ⟨slot, back, by rw [ho, List.nil_append]⟩
  | cons link front ih =>
      obtain ⟨o, slot⟩ := link
      rw [restText_cons] at h
      cases rest with
      | nil => cases h
      | cons link' rest =>
          obtain ⟨o', slot'⟩ := link'
          rw [restText_cons, List.cons_append, List.append_assoc] at h
          obtain ⟨ho, h⟩ := List.cons.inj h
          obtain ⟨hslot, h⟩ := Slot.text_append_inj (endsNumber_restText rest)
            (endsNumber_restText_append front op more) h
          obtain ⟨slot'', back, hrest⟩ := ih h
          refine ⟨slot'', back, ?_⟩
          rw [Operator.char_injective ho, hslot, hrest, List.cons_append]

/-- The operators of a derivation are those that an expression stands before. -/
theorem tokenize_before_iff {l : Layout} {before after : List Char} {op : Operator}
    (h : l.text = before ++ op.char :: after) :
    (∃ tokens, tokenize before = .ok tokens) ↔
      ∃ front slot back, l.rest = front ++ (op, slot) :: back ∧
        before = l.first.text ++ restText front := by
  constructor
  · rintro ⟨tokens, htokens⟩
    obtain ⟨l', rfl, -⟩ := tokenize_eq_ok_iff.1 htokens
    unfold text at h
    rw [List.append_assoc] at h
    obtain ⟨hfirst, hrest⟩ := Slot.text_append_inj (endsNumber_restText l.rest)
      (endsNumber_restText_append l'.rest op after) h
    obtain ⟨slot, back, hlinks⟩ := rest_eq_of_restText hrest
    refine ⟨l'.rest, slot, back, hlinks, ?_⟩
    rw [hfirst]
    rfl
  · rintro ⟨front, slot, back, -, rfl⟩
    exact ⟨_, tokenize_text ⟨l.first, front⟩⟩

end Layout

theorem tokenize_minus {before after : List Char} {c : Char} {front tokens : List Token}
    (hbefore : tokenize before = .ok front)
    (htokens : tokenize (before ++ '-' :: c :: after) = .ok tokens) (hc : isNumeric c = true) :
    ∃ x rest, Even rest.length ∧ tokens = front ++ .ofOperator .minus :: .number x :: rest ∧
      tokenize (before ++ '+' :: '-' :: c :: after) =
        .ok (front ++ .ofOperator .plus :: .number x.neg :: rest) := by
  obtain ⟨l, htext, rfl⟩ := tokenize_eq_ok_iff.1 htokens
  have hminus : l.text = before ++ Operator.minus.char :: (c :: after) := htext
  obtain ⟨links, slot, back, hlinks, rfl⟩ :=
    (Layout.tokenize_before_iff hminus).1 ⟨front, hbefore⟩
  have hfront : front = (Layout.mk l.first links).tokens :=
    Except.ok.inj (hbefore.symm.trans (tokenize_text ⟨l.first, links⟩))
  have hslot : slot.text ++ Layout.restText back = c :: after := by
    unfold Layout.text at hminus
    rw [hlinks, Layout.restText_append, Layout.restText_cons, ← List.append_assoc] at hminus
    exact (List.cons.inj (List.append_cancel_left hminus)).2
  obtain ⟨slot', hslot', hvalue⟩ := Slot.exists_negated hc hslot
  have hplus := tokenize_text ⟨l.first, links ++ (.plus, slot') :: back⟩
  unfold Layout.text Layout.tokens at hplus
  rw [Layout.restText_append, Layout.restText_cons, hslot', ← List.append_assoc,
    Layout.restTokens_append, Layout.restTokens_cons, hvalue] at hplus
  refine ⟨slot.numeral.value, Layout.restTokens back, Layout.even_length_restTokens back, ?_, ?_⟩
  · unfold Layout.tokens
    rw [hlinks, Layout.restTokens_append, Layout.restTokens_cons, hfront]
    rfl
  · rw [hfront]
    exact hplus

/-! ## The outcome -/

theorem evaluate_of_tokenize {text : List Char} {tokens : List Token}
    (h : tokenize text = .ok tokens) :
    evaluate text = Outcome.ofReduction (reduceTokens tokens) ∧ ∃ o, evaluate text = .ok o := by
  obtain ⟨l, rfl, rfl⟩ := tokenize_eq_ok_iff.1 h
  refine ⟨?_, _, l.evaluate_text .double⟩
  unfold evaluate
  rw [l.all_isBlank_text, h]
  rfl

theorem Agree.outcome {result result' : Except Halt Double} (h : Agree (· = ·) result result')
    {o : Outcome} (ho : Outcome.ofReduction result = .ok o) :
    (∃ x, Outcome.ofReduction result = .ok (.value x) ∧
        Outcome.ofReduction result' = .ok (.value x)) ∨
      ∃ f f', Outcome.ofReduction result = .ok (.failure f) ∧
        Outcome.ofReduction result' = .ok (.failure f') ∧ f.kind = f'.kind := by
  cases h with
  | ok h =>
      subst h
      exact Or.inl ⟨_, rfl, rfl⟩
  | @error halt halt' h =>
      cases halt with
      | breakdown b => cases ho
      | fault f =>
          cases halt' with
          | breakdown b => cases h
          | fault f' => exact Or.inr ⟨f, f', rfl, rfl, Option.some_inj.1 h⟩

/-- **Subtraction.** Let an expression have a `-` that is followed by a digit or a point and is
binary, since what stands before it is an expression too. With `+-` in its place the text is still
an expression, with the same tokens but for the operator and the number after it, which is negated.
Its outcome is the same value, or a fault of the same kind. -/
theorem evaluate_minus {before after : List Char} {c : Char} {front tokens : List Token}
    (hbefore : tokenize before = .ok front)
    (htokens : tokenize (before ++ '-' :: c :: after) = .ok tokens) (hc : isNumeric c = true) :
    (∃ x rest, tokens = front ++ .ofOperator .minus :: .number x :: rest ∧
      tokenize (before ++ '+' :: '-' :: c :: after) =
        .ok (front ++ .ofOperator .plus :: .number x.neg :: rest)) ∧
    ((∃ x, evaluate (before ++ '-' :: c :: after) = .ok (.value x) ∧
        evaluate (before ++ '+' :: '-' :: c :: after) = .ok (.value x)) ∨
      ∃ f f', evaluate (before ++ '-' :: c :: after) = .ok (.failure f) ∧
        evaluate (before ++ '+' :: '-' :: c :: after) = .ok (.failure f') ∧ f.kind = f'.kind) := by
  obtain ⟨x, rest, hrest, rfl, hplus⟩ := tokenize_minus hbefore htokens hc
  obtain ⟨hminus, o, ho⟩ := evaluate_of_tokenize htokens
  obtain ⟨hresult, -⟩ := evaluate_of_tokenize hplus
  refine ⟨⟨x, rest, rfl, hplus⟩, ?_⟩
  have hagree := reduceTokens_minus (odd_length_of_tokenize hbefore) x hrest
  rw [hminus] at ho
  rw [hminus, hresult]
  exact hagree.outcome ho

/-- With a product and a negative zero: `-0-0*3` and `-0+-0*3`. -/
theorem evaluate_minus_zero :
    tokenize ['-', '0'] = .ok [.number (Double.zero true)] ∧
      isNumeric '0' = true ∧
      tokenize ['-', '0', '-', '0', '*', '3'] =
        .ok [.number (Double.zero true), .ofOperator .minus, .number (Double.zero false),
          .ofOperator .times, .number (Double.ofInt 3)] ∧
      evaluate ['-', '0', '-', '0', '*', '3'] = .ok (.value (Double.zero true)) ∧
      evaluate ['-', '0', '+', '-', '0', '*', '3'] = .ok (.value (Double.zero true)) := by
  have hbefore : tokenize ['-', '0'] = .ok [.number (Double.zero true)] := by decide +kernel
  have htokens : tokenize ['-', '0', '-', '0', '*', '3'] =
      .ok [.number (Double.zero true), .ofOperator .minus, .number (Double.zero false),
        .ofOperator .times, .number (Double.ofInt 3)] := by
    decide +kernel
  have hminus : evaluate ['-', '0', '-', '0', '*', '3'] = .ok (.value (Double.zero true)) := by
    decide +kernel
  refine ⟨hbefore, rfl, htokens, hminus, ?_⟩
  obtain ⟨-, hsame⟩ := evaluate_minus hbefore htokens rfl
  rcases hsame with ⟨x, hx, hplus⟩ | ⟨f, -, hf, -⟩
  · have hvalue := hminus.symm.trans hx
    cases hvalue
    exact hplus
  · have hfault := hminus.symm.trans hf
    cases hfault

end DeskCalc
