import DeskCalc.Proofs.Entry.Outcome

set_option autoImplicit false

/-! # Every text has an outcome

An evaluation could break down in two ways: a reduction of the tokens lacks an operand, or a
number is divided by zero. Neither happens, whatever the text. The tokens of a text are those of
a derivation, so every operator has its operands (`evaluate_cases`), and a divisor is compared
with the least one before anything is divided by it, so the outcome does not depend on what a
division by zero would give (`evaluate_congr`).

`Outcome.Sound` collects what holds of the outcome of a text: it has one of three shapes, a
position lies within the text, and no fault says that the tokens are out of order.
-/

namespace DeskCalc

/-! ## Sound outcomes -/

namespace Outcome

/-- What an outcome can be made of. -/
inductive Shape where
  | number
  | fault
  | nothing

/-- The parts of an outcome are those of a shape, and it has no others. -/
def HasShape (o : Outcome) : Shape → Prop
  | .number =>
      (∃ x, o.value? = some x ∧ x.isFinite = true) ∧ o.fault? = none ∧ o.message = "" ∧
        o.position = none
  | .fault => o.value? = none ∧ (∃ f, o.fault? = some f) ∧ o.message ≠ ""
  | .nothing => o.value? = none ∧ o.fault? = none ∧ o.message = "" ∧ o.position = none

/-- What holds of the outcome of a text that has the given number of characters. -/
structure Sound (o : Outcome) (length : Nat) : Prop where
  shape : ∃! s, o.HasShape s
  position : ∀ p, o.position = some p → o.IsMalformed ∧ p ≤ length
  ne_badOrder : o ≠ .failure .badOrder
  ne_strayOperator : ∀ symbol, o ≠ .failure (.strayOperator symbol)

theorem Sound.mono {o : Outcome} {m n : Nat} (h : o.Sound m) (hmn : m ≤ n) : o.Sound n where
  shape := h.shape
  position p hp := ⟨(h.position p hp).1, Nat.le_trans (h.position p hp).2 hmn⟩
  ne_badOrder := h.ne_badOrder
  ne_strayOperator := h.ne_strayOperator

theorem sound_empty (length : Nat) : Outcome.empty.Sound length where
  shape := by
    refine ⟨.nothing, ⟨rfl, rfl, rfl, rfl⟩, fun s hs => ?_⟩
    cases s with
    | number =>
        obtain ⟨⟨x, hx, -⟩, -⟩ := hs
        cases hx
    | fault =>
        obtain ⟨-, ⟨f, hf⟩, -⟩ := hs
        cases hf
    | nothing => rfl
  position p hp := by cases hp
  ne_badOrder h := by cases h
  ne_strayOperator symbol h := by cases h

theorem sound_value {x : Double} (h : x.isFinite = true) (length : Nat) :
    (Outcome.value x).Sound length where
  shape := by
    refine ⟨.number, ⟨⟨x, rfl, h⟩, rfl, rfl, rfl⟩, fun s hs => ?_⟩
    cases s with
    | number => rfl
    | fault => cases hs.1
    | nothing => cases hs.1
  position p hp := by cases hp
  ne_badOrder h := by cases h
  ne_strayOperator symbol h := by cases h

end Outcome

theorem append_ne_empty {s : String} (h : s ≠ "") (t : String) : s ++ t ≠ "" :=
  fun hst => h (String.append_eq_empty_iff.1 hst).1

namespace Fault

theorem message_ne_empty (f : Fault) : f.message ≠ "" := by
  cases f with
  | notAnOperator c p => exact append_ne_empty (append_ne_empty (by decide) _) _
  | strayOperator symbol => exact append_ne_empty (append_ne_empty (by decide) _) _
  | outOfRange result => exact append_ne_empty (append_ne_empty (by decide) _) _
  | _ => exact of_decide_eq_true rfl

/-- The tokens are out of order, which no text brings about. -/
def IsInternal : Fault → Prop
  | .badOrder | .strayOperator _ => True
  | _ => False

theorem not_isInternal_of_position {f : Fault} {p : Nat} (h : f.position = some p) :
    ¬f.IsInternal := by
  cases f with
  | badOrder => cases h
  | strayOperator symbol => cases h
  | _ => exact id

theorem not_isInternal_of_kind {f : Fault} (h : f.kind = .divideByZero ∨ f.kind = .overflow) :
    ¬f.IsInternal := by
  cases f with
  | badOrder => simp [kind] at h
  | strayOperator symbol => simp [kind] at h
  | _ => exact id

end Fault

theorem Outcome.sound_failure {f : Fault} {length : Nat} (hinternal : ¬f.IsInternal)
    (hposition : ∀ p, f.position = some p → p ≤ length) : (Outcome.failure f).Sound length where
  shape := by
    refine ⟨.fault, ⟨rfl, ⟨f, rfl⟩, f.message_ne_empty⟩, fun s hs => ?_⟩
    cases s with
    | number =>
        obtain ⟨⟨x, hx, -⟩, -⟩ := hs
        cases hx
    | fault => rfl
    | nothing => cases hs.2.1
  position p hp := ⟨⟨f, rfl, Fault.kind_of_position hp⟩, hposition p hp⟩
  ne_badOrder h := by
    cases h
    exact hinternal trivial
  ne_strayOperator symbol h := by
    cases h
    exact hinternal trivial

theorem ParseTree.sound_outcome (t : ParseTree) (length : Nat) :
    (t.outcome .double).Sound length := by
  have hfault {f : Fault} (h : f.kind = .divideByZero ∨ f.kind = .overflow) :
      (Outcome.failure f).Sound length := by
    refine Outcome.sound_failure (Fault.not_isInternal_of_kind h) fun p hp => ?_
    rw [Fault.kind_of_position hp] at h
    rcases h with h | h <;> cases h
  unfold outcome
  split
  · rename_i f hf
    obtain ⟨⟨op, x, y⟩, -, hstep⟩ := List.exists_of_findSome?_eq_some hf
    exact hfault (Arithmetic.kind_of_fault? hstep)
  · split
    · rename_i hfinite
      exact Outcome.sound_value hfinite length
    · exact hfault (Or.inr rfl)

/-! ## Evaluations do not break down -/

theorem exists_sound_evaluate (text : List Char) :
    ∃ o, evaluate text = .ok o ∧ o.Sound text.length ∧
      (o = .empty ↔ ∀ c ∈ text, isBlank c = true) := by
  have hall : text.all isBlank = true ↔ ∀ c ∈ text, isBlank c = true := List.all_eq_true
  rcases evaluate_cases text with ⟨hblank, ho⟩ | ⟨f, htokens, ho⟩ | ⟨l, rfl, ho⟩
  · exact ⟨.empty, ho, Outcome.sound_empty _, iff_of_true rfl (hall.1 hblank)⟩
  · obtain ⟨p, hp, hle⟩ := position_of_tokenize htokens
    refine ⟨.failure f, ho, Outcome.sound_failure (Fault.not_isInternal_of_position hp) ?_, ?_⟩
    · intro q hq
      rw [hp] at hq
      cases hq
      exact hle
    · refine iff_of_false (by simp) fun hblank => ?_
      -- a blank text would have the empty outcome
      rw [evaluate, if_pos (hall.2 hblank)] at ho
      cases ho
  · refine ⟨_, ho, l.tree.sound_outcome _, ?_⟩
    refine iff_of_false (l.tree.isArithmetic_outcome .double).ne_empty fun hblank => ?_
    rw [l.all_isBlank_text] at hall
    exact Bool.false_ne_true (hall.2 hblank)

/-- An entry has an outcome that does not depend on numbers, or a part of it is evaluated. -/
theorem Entry.evaluateEntry_eq (text : List Char) :
    evaluateEntry text = .ok .empty ∨
      (∃ f : Fault, (f = .noOperands ∨ f = .unfinishedSign) ∧
        evaluateEntry text = .ok (.failure f)) ∨
      ∃ ready : List Char, ready.length ≤ text.length ∧ evaluateEntry text = evaluate ready := by
  rcases List.eq_nil_or_concat text with rfl | ⟨front, c, rfl⟩
  · exact Or.inl rfl
  · rw [List.concat_eq_append]
    unfold evaluateEntry
    rw [prepare_concat]
    split_ifs
    · exact Or.inr (Or.inl ⟨.noOperands, Or.inl rfl, rfl⟩)
    · exact Or.inr (Or.inl ⟨.unfinishedSign, Or.inr rfl, rfl⟩)
    · exact Or.inr (Or.inr ⟨front, by simp, rfl⟩)
    · exact Or.inr (Or.inr ⟨front ++ [c], Nat.le_refl _, rfl⟩)

theorem exists_sound_evaluateEntry (text : List Char) :
    ∃ o, evaluateEntry text = .ok o ∧ o.Sound text.length := by
  rcases Entry.evaluateEntry_eq text with ho | ⟨f, hf, ho⟩ | ⟨ready, hready, ho⟩
  · exact ⟨.empty, ho, Outcome.sound_empty _⟩
  · refine ⟨.failure f, ho, Outcome.sound_failure ?_ ?_⟩
    · rcases hf with rfl | rfl <;> exact id
    · rcases hf with rfl | rfl <;> exact fun p hp => by cases hp
  · obtain ⟨o, hready', hsound, -⟩ := exists_sound_evaluate ready
    exact ⟨o, ho.trans hready', hsound.mono hready⟩

/-! ## Nothing is divided by zero -/

section Congruence

variable {ops ops' : Arithmetic}

theorem foldProducts_congr (h : ops.multiplicative? = ops'.multiplicative?) (current : Token)
    (tokens : List Token) : foldProducts ops current tokens = foldProducts ops' current tokens := by
  induction tokens using List.twoStepInduction generalizing current with
  | nil => rfl
  | singleton t => rfl
  | cons_cons symbol operand rest ih _ =>
      unfold foldProducts
      simp only [h, ih]

theorem foldSums_congr (h : ops.additive? = ops'.additive?) (total : Double)
    (tokens : List Token) : foldSums ops total tokens = foldSums ops' total tokens := by
  induction tokens using List.twoStepInduction generalizing total with
  | nil => rfl
  | singleton t => rfl
  | cons_cons symbol operand rest ih _ =>
      unfold foldSums
      simp only [h, ih]

/-- An evaluation depends on the arithmetic only through the steps of the two reductions and the
range of the result. -/
theorem evaluate_congr (hproducts : ops.multiplicative? = ops'.multiplicative?)
    (hsums : ops.additive? = ops'.additive?) (hrange : ops.inRange = ops'.inRange)
    (text : List Char) : evaluate text ops = evaluate text ops' := by
  have hreduce (tokens : List Token) : reduceTokens tokens ops = reduceTokens tokens ops' := by
    cases tokens with
    | nil => rfl
    | cons first rest =>
        unfold reduceTokens reduceProducts
        simp only [foldProducts_congr hproducts]
        cases foldProducts ops' first rest with
        | error halt => rfl
        | ok reduced =>
            cases reduced with
            | nil => rfl
            | cons term terms =>
                unfold reduceSums
                simp only [foldSums_congr hsums, hrange]
  unfold evaluate
  simp only [hreduce]

end Congruence

theorem lt_leastDivisor_zero (negative : Bool) :
    (Double.zero negative).abs.lt leastDivisor = true := by
  rw [Double.abs_zero]
  decide +kernel

/-- The arithmetic of double precision, with something else in place of the quotient. -/
def Arithmetic.dividing (divide : Double → Double → Double) : Arithmetic :=
  { Arithmetic.double with div := divide }

/-- A zero never gets as far as the division. -/
theorem quotient_dividing {divide : Double → Double → Double}
    (h : ∀ x y, (∀ negative, y ≠ .zero negative) → divide x y = x.div y) :
    (Arithmetic.dividing divide).quotient = Arithmetic.double.quotient := by
  funext x y
  show (if y.abs.lt leastDivisor = true then Except.error (.fault .divisionByZero)
      else Arithmetic.double.inRange (divide x y)) =
    if y.abs.lt leastDivisor = true then Except.error (.fault .divisionByZero)
    else Arithmetic.double.inRange (x.div y)
  by_cases hsmall : y.abs.lt leastDivisor = true
  · rw [if_pos hsmall, if_pos hsmall]
  · have hzero : ∀ negative, y ≠ .zero negative := by
      rintro negative rfl
      exact hsmall (lt_leastDivisor_zero negative)
    rw [if_neg hsmall, if_neg hsmall, h x y hzero]

theorem evaluate_dividing {divide : Double → Double → Double}
    (h : ∀ x y, (∀ negative, y ≠ .zero negative) → divide x y = x.div y) (text : List Char) :
    evaluate text (.dividing divide) = evaluate text := by
  have hproducts : (Arithmetic.dividing divide).multiplicative? =
      Arithmetic.double.multiplicative? := by
    funext symbol
    unfold Arithmetic.multiplicative?
    rw [quotient_dividing h]
    rfl
  exact evaluate_congr hproducts rfl rfl text

/-- **Every text has an outcome.** Neither evaluation breaks down, and both outcomes are sound.
The outcome of an expression is empty exactly if the text is blank. It is the same whatever a
division by zero would give, for none is performed. -/
theorem evaluate_total (text : List Char) :
    (∃ o, evaluate text = .ok o ∧ o.Sound text.length ∧
      (o = .empty ↔ ∀ c ∈ text, isBlank c = true)) ∧
    (∃ o, evaluateEntry text = .ok o ∧ o.Sound text.length) ∧
    ∀ divide : Double → Double → Double,
      (∀ x y, (∀ negative, y ≠ .zero negative) → divide x y = x.div y) →
        evaluate text (.dividing divide) = evaluate text :=
  ⟨exists_sound_evaluate text, exists_sound_evaluateEntry text,
    fun _ h => evaluate_dividing h text⟩

end DeskCalc
