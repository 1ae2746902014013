import DeskCalc.Proofs.Double.Magnitude
import DeskCalc.Proofs.Entry.Total
import DeskCalc.Proofs.Text.Digits

set_option autoImplicit false

/-! # Short expressions are in range

A character of an expression is worth four bits. A number of `n` characters is below `10^n`, and it
is zero or at least `10^-n`, so it is below `2^(4n)` and above `2^(-4n)`. Joining two parts of `m`
and `n` characters by an operator takes `m + n + 1` characters and gives a result below
`2^(4(m+n+1))`, unless a divisor counts as zero. Below `2^1024` nothing overflows, so the bound on
the number of characters keeps the whole evaluation in range.
-/

namespace DeskCalc

/-- The outcome is a result that is out of range. -/
def Outcome.IsOverflow (o : Outcome) : Prop := ∃ f, o = .failure f ∧ f.kind = .overflow

/-! ## Numbers -/

/-- The decimal of a run has at most as many digits, and as many places, as the run characters. -/
theorem exists_decimalOf {run : List Char} (h : ∀ c ∈ run, isNumeric c = true)
    (hcount : run.count '.' ≤ 1) :
    ∃ m places : Nat, decimalOf run = ⟨m, -(places : Int)⟩ ∧ m < pow10 run.length ∧
      places ≤ run.length := by
  rcases run_cases h hcount with hrun | ⟨whole, places, rfl, hwhole, hplaces⟩
  · have hlt := Digits.ofDigitChars_lt hrun 0
    rw [Nat.zero_add, Nat.one_mul] at hlt
    exact ⟨_, 0, decimalOf_digits hrun, hlt, Nat.zero_le _⟩
  · have hdigits : ∀ c ∈ whole ++ places, c.isDigit = true := by
      intro c hc
      exact (List.mem_append.1 hc).elim (hwhole c) (hplaces c)
    have hlength : (whole ++ '.' :: places).length = (whole ++ places).length + 1 := by
      simp only [List.length_append, List.length_cons]
      omega
    have hlt := Digits.ofDigitChars_lt hdigits 0
    rw [Nat.zero_add, Nat.one_mul] at hlt
    refine ⟨_, places.length, decimalOf_point hwhole places, ?_, ?_⟩
    · exact Nat.lt_of_lt_of_le hlt (pow10_le_pow10 (by omega))
    · simp only [List.length_append, List.length_cons]
      omega

/-- A number that can be written with `n` characters. -/
structure Double.Spelled (x : Double) (n : Nat) : Prop where
  below : x.Below (4 * n)
  above : x.Above (4 * n)

theorem Double.Spelled.mono {x : Double} {m n : Nat} (h : x.Spelled m) (hmn : m ≤ n) :
    x.Spelled n := ⟨h.below.mono (by omega), h.above.mono (by omega)⟩

theorem Numeral.spelled_value (n : Numeral) (h : 4 * n.run.length < 1024) :
    n.value.Spelled n.run.length := by
  obtain ⟨m, places, hdecimal, hm, hplaces⟩ :=
    exists_decimalOf n.isNumeric_of_mem n.count_point_le
  rw [n.value_eq, hdecimal]
  exact ⟨Double.below_ofDecimal n.negative hm h, Double.above_ofDecimal n.negative hm hplaces h⟩

theorem Slot.length_run_le (s : Slot) : s.numeral.run.length ≤ s.text.length := by
  unfold Slot.text Numeral.text
  simp only [List.length_append]
  omega

/-! ## One step -/

theorem Arithmetic.fault?_of_below {op : Operator} (hop : op.isMultiplicative = true)
    {x y : Double} {m n : Nat} (hx : x.Below (4 * m)) (hy : y.Spelled n)
    (h : 4 * (m + n + 1) < 1024) :
    Arithmetic.double.fault? op x y = some .divisionByZero ∨
      Arithmetic.double.fault? op x y = none ∧
        (Arithmetic.double.apply op x y).Below (4 * (m + n + 1)) := by
  cases op with
  | plus => cases hop
  | minus => cases hop
  | times =>
      have hproduct : (x.mul y).Below (4 * m + 4 * n) := hx.mul hy.below (by omega)
      refine Or.inr ⟨?_, hproduct.mono (by omega)⟩
      simp [fault?, apply, Arithmetic.double, hproduct.isFinite]
  | _ =>
      -- the operator is that of quotients
      by_cases hsmall : y.abs.lt leastDivisor = true
      · exact Or.inl (if_pos ⟨rfl, hsmall⟩)
      · -- a divisor that does not count as zero is not zero
        have hzero : ∀ negative, y ≠ .zero negative := by
          rintro negative rfl
          exact hsmall (lt_leastDivisor_zero negative)
        have hquotient : (x.div y).Below (4 * m + 4 * n) := hx.div hy.above hzero (by omega)
        refine Or.inr ⟨?_, hquotient.mono (by omega)⟩
        simp [fault?, apply, Arithmetic.double, hquotient.isFinite, hsmall]

theorem Arithmetic.below_apply {op : Operator} (hop : op.isMultiplicative = false)
    {x y : Double} {m n : Nat} (hx : x.Below (4 * m)) (hy : y.Below (4 * n))
    (h : 4 * (m + n + 1) < 1024) :
    (Arithmetic.double.apply op x y).Below (4 * (m + n + 1)) := by
  cases op with
  | plus => exact (hx.add hy (by omega)).mono (by omega)
  | minus => exact (hx.sub hy (by omega)).mono (by omega)
  | times | _ => cases hop

/-! ## Trees -/

namespace ParseTree

/-- The tree can be written with `n` characters, one for each operator. -/
inductive Spans : ParseTree → Nat → Prop where
  | leaf {x : Double} {n : Nat} (hx : x.Spelled n) : Spans (.leaf x) n
  | node {op : Operator} {left right : ParseTree} {m n : Nat} (hleft : Spans left m)
      (hright : Spans right n) : Spans (.node op left right) (m + n + 1)

theorem Spans.snoc {t : ParseTree} {x : Double} {m n : Nat} (ht : t.Spans m) (hx : x.Spelled n)
    (op : Operator) : (t.snoc op x).Spans (m + n + 1) := by
  induction ht with
  | leaf hy => exact .node (.leaf hy) (.leaf hx)
  | @node o left right j k hleft hright _ ih =>
      unfold ParseTree.snoc
      split
      · have hassoc : j + k + 1 + n + 1 = j + (k + n + 1) + 1 := by omega
        rw [hassoc]
        exact .node hleft ih
      · exact .node (.node hleft hright) (.leaf hx)

/-- More operators and numbers take the characters of their text. -/
theorem Spans.extend {rest : List (Operator × Slot)} {t : ParseTree} {m : Nat} (ht : t.Spans m)
    (h : 4 * (Layout.restText rest).length < 1024) :
    (t.extend (rest.map fun (op, slot) => (op, slot.numeral.value))).Spans
      (m + (Layout.restText rest).length) := by
  induction rest generalizing t m with
  | nil => exact ht
  | cons link rest ih =>
      obtain ⟨op, slot⟩ := link
      have hlength : (Layout.restText ((op, slot) :: rest)).length =
          slot.text.length + (Layout.restText rest).length + 1 := by
        rw [Layout.restText_cons, List.length_cons, List.length_append]
      have hrun := slot.length_run_le
      have hspelled : slot.numeral.value.Spelled slot.text.length :=
        (slot.numeral.spelled_value (by omega)).mono hrun
      have hrest := ih (ht.snoc hspelled op) (by omega)
      have hassoc : m + slot.text.length + 1 + (Layout.restText rest).length =
          m + (Layout.restText ((op, slot) :: rest)).length := by omega
      rwa [hassoc] at hrest

/-- The evaluation stops at a divisor that counts as zero, or its value is below `2^k`. -/
def InRange (t : ParseTree) (k : Nat) : Prop :=
  t.fault? .double = some .divisionByZero ∨
    t.fault? .double = none ∧ (t.value .double).Below k

theorem fault?_node_of_multiplicative (ops : Arithmetic) {op : Operator}
    (h : op.isMultiplicative = true) (left : ParseTree) (x : Double) :
    (ParseTree.node op left (.leaf x)).fault? ops =
      (left.fault? ops).or (ops.fault? op (left.value ops) x) := by
  unfold fault?
  simp [steps, h, value, List.findSome?_append]

theorem fault?_node_of_additive (ops : Arithmetic) {op : Operator}
    (h : op.isMultiplicative = false) (left right : ParseTree) :
    (ParseTree.node op left right).fault? ops = (left.fault? ops).or (right.fault? ops) := by
  unfold fault?
  simp [steps, h, List.findSome?_append]

theorem IsTerm.inRange {t : ParseTree} (ht : t.IsTerm) {n : Nat} (hspans : t.Spans n)
    (h : 4 * n < 1024) : t.InRange (4 * n) := by
  induction ht generalizing n with
  | leaf x =>
      cases hspans with
      | leaf hx => exact Or.inr ⟨rfl, hx.below⟩
  | @node op left x hop hleft ih =>
      cases hspans with
      | @node _ _ _ j k hleft' hright' =>
          cases hright' with
          | leaf hx =>
              unfold InRange
              rw [fault?_node_of_multiplicative .double hop]
              -- what stops the product so far stops the whole
              rcases ih hleft' (by omega) with hzero | ⟨hnone, hbelow⟩
              · rw [hzero]
                exact Or.inl rfl
              · rw [hnone, Option.none_or]
                exact Arithmetic.fault?_of_below hop hbelow hx h

theorem IsSum.inRange {t : ParseTree} (ht : t.IsSum) {n : Nat} (hspans : t.Spans n)
    (h : 4 * n < 1024) : t.InRange (4 * n) := by
  induction ht generalizing n with
  | term ht => exact ht.inRange hspans h
  | @node op left right hop hleft hright ih =>
      cases hspans with
      | @node _ _ _ j k hleft' hright' =>
          unfold InRange
          rw [fault?_node_of_additive .double hop]
          rcases ih hleft' (by omega) with hzero | ⟨hnone, hbelow⟩
          · rw [hzero]
            exact Or.inl rfl
          · rw [hnone, Option.none_or]
            rcases hright.inRange hright' (by omega) with hzero | ⟨hnone', hbelow'⟩
            · exact Or.inl hzero
            · exact Or.inr ⟨hnone', Arithmetic.below_apply hop hbelow hbelow' h⟩

theorem InRange.not_isOverflow {t : ParseTree} {k : Nat} (h : t.InRange k) :
    ¬(t.outcome .double).IsOverflow := by
  unfold outcome
  rcases h with hzero | ⟨hnone, hbelow⟩
  · rw [hzero]
    rintro ⟨f, hf, hkind⟩
    cases hf
    cases hkind
  · have hfinite : Arithmetic.double.isFinite (t.value .double) = true := hbelow.isFinite
    rw [hnone]
    dsimp only
    rw [if_pos hfinite]
    rintro ⟨f, hf, -⟩
    cases hf

end ParseTree

/-! ## Expressions -/

theorem Layout.spans_tree (l : Layout) (h : 4 * l.text.length < 1024) :
    l.tree.Spans l.text.length := by
  have hlength : l.text.length = l.first.text.length + (restText l.rest).length :=
    List.length_append
  have hrun := l.first.length_run_le
  have hspelled : l.first.numeral.value.Spelled l.first.text.length :=
    (l.first.numeral.spelled_value (by omega)).mono hrun
  rw [hlength]
  exact (ParseTree.Spans.leaf hspelled).extend (by omega)

theorem Fault.not_isOverflow_of_kind {f : Fault} (h : f.kind = .malformed) :
    ¬(Outcome.failure f).IsOverflow := by
  rintro ⟨g, hg, hkind⟩
  cases hg
  rw [h] at hkind
  cases hkind

theorem not_isOverflow_empty : ¬Outcome.empty.IsOverflow := by
  rintro ⟨f, hf, -⟩
  cases hf

theorem not_isOverflow_evaluate {text : List Char} (h : 4 * text.length < 1024) :
    ∃ o, evaluate text = .ok o ∧ ¬o.IsOverflow := by
  rcases evaluate_cases text with ⟨-, ho⟩ | ⟨f, hf, ho⟩ | ⟨l, rfl, ho⟩
  · exact ⟨.empty, ho, not_isOverflow_empty⟩
  · exact ⟨.failure f, ho, Fault.not_isOverflow_of_kind (kind_of_tokenize hf)⟩
  · exact ⟨_, ho, (l.isSum_tree.inRange (l.spans_tree h) h).not_isOverflow⟩

theorem not_isOverflow_evaluateEntry {text : List Char} (h : 4 * text.length < 1024) :
    ∃ o, evaluateEntry text = .ok o ∧ ¬o.IsOverflow := by
  rcases Entry.evaluateEntry_eq text with ho | ⟨f, hf, ho⟩ | ⟨ready, hready, ho⟩
  · exact ⟨.empty, ho, not_isOverflow_empty⟩
  · refine ⟨.failure f, ho, Fault.not_isOverflow_of_kind ?_⟩
    rcases hf with rfl | rfl <;> rfl
  · have hshort : 4 * ready.length < 1024 := by omega
    obtain ⟨o, ho', hoverflow⟩ := not_isOverflow_evaluate hshort
    exact ⟨o, ho.trans ho', hoverflow⟩

end DeskCalc
