import DeskCalc.Proofs.Expression.Precedence

set_option autoImplicit false

/-! # Finite values come from finite numbers

Only the results of the multiplicative steps and the last sum are tested for being finite; the
numbers of an expression and the sums before the last one are not. For sums, differences and
products that is enough, because an infinity or NaN never gets back into the finite range. A
quotient is different: a finite number divided by an infinity is zero.

So if an expression has a value, an infinite number took part in its evaluation exactly if one of
its divisors is infinite, that is, if the digits after a `/` overflow (`isFinite_values_iff`). The
value is then wrong: `10^308/10^309` is zero (`isFinite_values_overflow`).
-/

namespace DeskCalc

namespace Double

/-- A finite sum has finite terms. -/
theorem isFinite_of_isFinite_add {x y : Double} (h : (x.add y).isFinite = true) :
    x.isFinite = true ∧ y.isFinite = true := by
  cases x with
  | finite s u hu =>
      cases y with
      | finite t v hv => exact ⟨rfl, rfl⟩
      | infinite t => cases h
      | nan => cases h
  | infinite s =>
      cases y with
      | finite t v hv => cases h
      | infinite t =>
          -- infinities of the same sign add up, and others cancel to NaN
          by_cases hst : s = t
          · simp [add, hst, isFinite] at h
          · simp [add, hst, isFinite] at h
      | nan => cases h
  | nan => cases h

theorem isFinite_of_isFinite_sub {x y : Double} (h : (x.sub y).isFinite = true) :
    x.isFinite = true ∧ y.isFinite = true := by
  obtain ⟨hx, hy⟩ := isFinite_of_isFinite_add h
  exact ⟨hx, by rwa [isFinite_neg] at hy⟩

/-- A finite product has finite factors. -/
theorem isFinite_of_isFinite_mul {x y : Double} (h : (x.mul y).isFinite = true) :
    x.isFinite = true ∧ y.isFinite = true := by
  cases x with
  | finite s u hu =>
      cases y with
      | finite t v hv => exact ⟨rfl, rfl⟩
      | infinite t =>
          by_cases hzero : u = 0
          · simp [mul, hzero, isFinite] at h
          · simp [mul, hzero, isFinite] at h
      | nan => cases h
  | infinite s =>
      cases y with
      | finite t v hv =>
          by_cases hzero : v = 0
          · simp [mul, hzero, isFinite] at h
          · simp [mul, hzero, isFinite] at h
      | infinite t => cases h
      | nan => cases h
  | nan => cases h

/-- A finite quotient has a finite dividend; nothing follows for the divisor. -/
theorem isFinite_of_isFinite_div {x y : Double} (h : (x.div y).isFinite = true) :
    x.isFinite = true := by
  cases x with
  | finite s u hu => rfl
  | infinite s => cases y <;> cases h
  | nan => cases h

end Double

theorem Arithmetic.isFinite_of_isFinite_apply {op : Operator} {x y : Double}
    (h : (Arithmetic.double.apply op x y).isFinite = true) :
    x.isFinite = true ∧ (op ≠ .over → y.isFinite = true) := by
  cases op with
  | plus =>
      obtain ⟨hx, hy⟩ := Double.isFinite_of_isFinite_add h
      exact ⟨hx, fun _ => hy⟩
  | minus =>
      obtain ⟨hx, hy⟩ := Double.isFinite_of_isFinite_sub h
      exact ⟨hx, fun _ => hy⟩
  | times =>
      obtain ⟨hx, hy⟩ := Double.isFinite_of_isFinite_mul h
      exact ⟨hx, fun _ => hy⟩
  | _ => exact ⟨Double.isFinite_of_isFinite_div h, fun hne => absurd rfl hne⟩

/-! ## The numbers in an evaluation -/

namespace ParseTree

section Values

variable (ops : Arithmetic)

/-- The numbers that take part in the evaluation of a tree: those that are read, the products and
quotients, and the running sums. -/
def values : ParseTree → List Double
  | .leaf x => [x]
  | .node op left right =>
      left.values ++ right.values ++ [(ParseTree.node op left right).value ops]

/-- The divisors in the evaluation of a tree. -/
def divisors : ParseTree → List Double
  | .leaf _ => []
  | .node op left right =>
      left.divisors ++ right.divisors ++ if op = .over then [right.value ops] else []

theorem value_mem_values (t : ParseTree) : t.value ops ∈ t.values ops := by
  cases t with
  | leaf x => exact List.mem_singleton_self x
  | node op left right => simp [values]

theorem divisors_subset_values (t : ParseTree) : t.divisors ops ⊆ t.values ops := by
  induction t with
  | leaf x => exact List.nil_subset _
  | node op left right ihl ihr =>
      intro y hy
      simp only [divisors, List.mem_append] at hy
      simp only [values, List.mem_append]
      rcases hy with (hy | hy) | hy
      · exact Or.inl (Or.inl (ihl hy))
      · exact Or.inl (Or.inr (ihr hy))
      · by_cases hop : op = .over
        · rw [if_pos hop, List.mem_singleton] at hy
          rw [hy]
          exact Or.inl (Or.inr (right.value_mem_values ops))
        · rw [if_neg hop] at hy
          cases hy

end Values

theorem IsTerm.isFinite_or_mem_divisors {t : ParseTree} (h : t.IsTerm)
    (hvalue : (t.value .double).isFinite = true) :
    ∀ y ∈ t.values .double, y.isFinite = true ∨ y ∈ t.divisors .double := by
  induction h with
  | leaf x =>
      intro y hy
      rw [List.mem_singleton.1 hy]
      exact Or.inl hvalue
  | @node op left x hop hleft ih =>
      obtain ⟨hfinite, hx⟩ := Arithmetic.isFinite_of_isFinite_apply hvalue
      intro y hy
      simp only [values, List.mem_append, List.mem_singleton] at hy
      simp only [divisors, List.mem_append]
      rcases hy with (hy | rfl) | rfl
      · exact (ih hfinite y hy).imp id fun hmem => Or.inl (Or.inl hmem)
      · by_cases hover : op = .over
        · rw [if_pos hover]
          exact Or.inr (Or.inr (List.mem_singleton_self _))
        · exact Or.inl (hx hover)
      · exact Or.inl hvalue

/-- If the value of a tree is finite, so are all its numbers but the divisors. -/
theorem IsSum.isFinite_or_mem_divisors {t : ParseTree} (h : t.IsSum)
    (hvalue : (t.value .double).isFinite = true) :
    ∀ y ∈ t.values .double, y.isFinite = true ∨ y ∈ t.divisors .double := by
  induction h with
  | term ht => exact ht.isFinite_or_mem_divisors hvalue
  | @node op left right hop hleft hright ih =>
      have hover : op ≠ .over := by
        rintro rfl
        cases hop
      obtain ⟨hfinite, hfinite'⟩ := Arithmetic.isFinite_of_isFinite_apply hvalue
      intro y hy
      simp only [values, List.mem_append, List.mem_singleton] at hy
      simp only [divisors, List.mem_append]
      rcases hy with (hy | hy) | rfl
      · exact (ih hfinite y hy).imp id fun hmem => Or.inl (Or.inl hmem)
      · have hor := hright.isFinite_or_mem_divisors (hfinite' hover) y hy
        exact hor.imp id fun hmem => Or.inl (Or.inr hmem)
      · exact Or.inl hvalue

theorem isFinite_of_outcome {t : ParseTree} {x : Double} (h : t.outcome .double = .value x) :
    (t.value .double).isFinite = true := by
  unfold outcome at h
  split at h
  · cases h
  · split at h
    · assumption
    · cases h

end ParseTree

/-- **No value from an infinity, divisors apart.** If an expression has a value, then all numbers
that take part in its evaluation are finite but for divisors; so they are all finite exactly if
the divisors are. -/
theorem isFinite_values_iff {text : List Char} {x : Double}
    (h : evaluate text = .ok (.value x)) :
    ∃ t : ParseTree, t.IsSum ∧ tokenize text = .ok t.tokens ∧
      (∀ y ∈ t.values .double, y.isFinite = true ∨ y ∈ t.divisors .double) ∧
      ((∀ y ∈ t.values .double, y.isFinite = true) ↔
        ∀ y ∈ t.divisors .double, y.isFinite = true) := by
  rcases evaluate_cases text with ⟨-, ho⟩ | ⟨f, -, ho⟩ | ⟨l, rfl, ho⟩
  · rw [ho] at h
    cases h
  · rw [ho] at h
    cases h
  · rw [ho] at h
    have hvalue := ParseTree.isFinite_of_outcome (Except.ok.inj h)
    have hor := l.isSum_tree.isFinite_or_mem_divisors hvalue
    refine ⟨l.tree, l.isSum_tree, by rw [tokenize_text, l.tokens_tree], hor, ?_, ?_⟩
    · exact fun hall y hy => hall y (l.tree.divisors_subset_values .double hy)
    · exact fun hdivisors y hy => (hor y hy).elim id (hdivisors y)

/-- The divisor of `6/2` is finite, and so are the other numbers. -/
theorem isFinite_values_iff_quotient :
    evaluate ['6', '/', '2'] = .ok (.value (Double.ofInt 3)) ∧
    ∀ y ∈ (ParseTree.node .over (.leaf (Double.ofInt 6)) (.leaf (Double.ofInt 2))).values .double,
      y.isFinite = true := by
  have hvalue : evaluate ['6', '/', '2'] = .ok (.value (Double.ofInt 3)) := by decide +kernel
  have htokens : tokenize ['6', '/', '2'] =
      .ok [.number (Double.ofInt 6), .ofOperator .over, .number (Double.ofInt 2)] := rfl
  obtain ⟨t, ht, htokens', -, hiff⟩ := isFinite_values_iff hvalue
  have htree : t = .node .over (.leaf (Double.ofInt 6)) (.leaf (Double.ofInt 2)) := by
    refine ParseTree.tokens_injective ht (.term (.node _ rfl (.leaf _))) ?_
    exact Except.ok.inj (htokens'.symm.trans htokens)
  subst htree
  refine ⟨hvalue, hiff.2 fun y hy => ?_⟩
  rw [List.mem_singleton.1 hy]
  decide +kernel

/-- The digits of `10^309` overflow, and what is divided by them becomes zero. -/
theorem isFinite_values_overflow :
    evaluate ('1' :: (List.replicate 308 '0' ++ '/' :: '1' :: List.replicate 309 '0')) =
      .ok (.value (.zero false)) ∧
    ∃ t : ParseTree, t.IsSum ∧
      tokenize ('1' :: (List.replicate 308 '0' ++ '/' :: '1' :: List.replicate 309 '0')) =
        .ok t.tokens ∧
      .infinite false ∈ t.values .double := by
  refine ⟨by decide +kernel, .node .over (.leaf (Double.ofDecimal false ⟨1, 308⟩))
    (.leaf (.infinite false)), .term (.node _ rfl (.leaf _)), by decide +kernel, ?_⟩
  simp [ParseTree.values]

end DeskCalc
