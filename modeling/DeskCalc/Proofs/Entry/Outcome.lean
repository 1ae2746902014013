import DeskCalc.Machine
import DeskCalc.Proofs.Entry.Typing
import DeskCalc.Proofs.Expression.Precedence

set_option autoImplicit false

/-! # Evaluating what was typed

The entry and the scanner have grammars of their own. They agree in that a chain of the entry
(`chain`, its numbers joined by operators) has a derivation as an expression, with a minus after
an operator taken as the sign of the next number. So the only texts that can be typed and are
malformed are those that end in a sign.
-/

namespace DeskCalc

/-- The outcome is the fault of a malformed expression. -/
def Outcome.IsMalformed (o : Outcome) : Prop := ∃ f, o = .failure f ∧ f.kind = .malformed

/-- The outcome is a value, a division by zero or a result that is out of range. -/
def Outcome.IsArithmetic (o : Outcome) : Prop :=
  (∃ x, o = .value x) ∨ ∃ f, o = .failure f ∧ (f.kind = .divideByZero ∨ f.kind = .overflow)

theorem Outcome.IsArithmetic.not_isMalformed {o : Outcome} (h : o.IsArithmetic) :
    ¬o.IsMalformed := by
  rintro ⟨f, rfl, hkind⟩
  rcases h with ⟨x, hx⟩ | ⟨f', hf, hkind' | hkind'⟩
  · cases hx
  · cases hf
    rw [hkind] at hkind'
    cases hkind'
  · cases hf
    rw [hkind] at hkind'
    cases hkind'

theorem Outcome.IsArithmetic.ne_empty {o : Outcome} (h : o.IsArithmetic) : o ≠ .empty := by
  rintro rfl
  rcases h with ⟨x, hx⟩ | ⟨f, hf, -⟩
  · cases hx
  · cases hf

theorem Arithmetic.kind_of_fault? {ops : Arithmetic} {op : Operator} {x y : Double} {f : Fault}
    (h : ops.fault? op x y = some f) : f.kind = .divideByZero ∨ f.kind = .overflow := by
  unfold fault? at h
  split_ifs at h
  · cases h
    exact Or.inl rfl
  · cases h
    exact Or.inr rfl

theorem ParseTree.isArithmetic_outcome (t : ParseTree) (ops : Arithmetic) :
    (t.outcome ops).IsArithmetic := by
  unfold outcome
  split
  · rename_i f hf
    obtain ⟨⟨op, x, y⟩, -, hstep⟩ := List.exists_of_findSome?_eq_some hf
    exact Or.inr ⟨f, rfl, Arithmetic.kind_of_fault? hstep⟩
  · split
    · exact Or.inl ⟨_, rfl⟩
    · exact Or.inr ⟨_, rfl, Or.inr rfl⟩

namespace Entry

open scoped Computability

/-! ## A chain is an expression -/

/-- A number of the entry line, with or without a minus sign in front of it. -/
theorem exists_numeral_of_mem_number (sign : Option Sign) {text : List Char}
    (h : text ∈ number) : ∃ n : Numeral, n.text = (sign.map Sign.char).toList ++ text := by
  obtain ⟨whole, hwhole, fraction, hfraction, rfl⟩ := Language.mem_mul.1 h
  obtain ⟨_, ⟨c, hc, rfl⟩, more, hmore, rfl⟩ := Language.mem_mul.1 hwhole
  rw [mem_kstar_digit] at hmore
  have hdigits : ∀ d ∈ [c] ++ more, d.isDigit = true := by
    simpa using ⟨hc, hmore⟩
  have hcount {run : List Char} (hrun : ∀ d ∈ run, d.isDigit = true) : run.count '.' = 0 := by
    refine List.count_eq_zero.2 fun hmem => ?_
    cases hrun '.' hmem
  have hnumeric {run : List Char} (hrun : ∀ d ∈ run, d.isDigit = true) :
      ∀ d ∈ run, isNumeric d = true := fun d hd => by simp [isNumeric, hrun d hd]
  rcases (Language.mem_add _ _ _).1 hfraction with rfl | hfraction
  · rw [List.append_nil]
    exact ⟨⟨sign, [c] ++ more, by simp, hnumeric hdigits, by rw [hcount hdigits]; omega⟩, rfl⟩
  · obtain ⟨_, rfl, places, hplaces, rfl⟩ := Language.mem_mul.1 hfraction
    rw [mem_kstar_digit] at hplaces
    refine ⟨⟨sign, [c] ++ more ++ (['.'] ++ places), by simp, ?_, ?_⟩, rfl⟩
    · intro d hd
      rcases List.mem_append.1 hd with hd | hd
      · exact hnumeric hdigits d hd
      · rcases List.mem_append.1 hd with hd | hd
        · rw [List.mem_singleton.1 hd]
          rfl
        · exact hnumeric hplaces d hd
    · have hfront := hcount hdigits
      have hback := hcount hplaces
      have hpoint : (['.'] ++ places).count '.' = 1 := by
        rw [List.singleton_append, List.count_cons_self, hback]
      rw [List.count_append (a := '.'), hfront, hpoint]

/-- A joint with the number after it is an operator with its right operand. -/
theorem exists_link_of_mem {text : List Char} (h : text ∈ joint * number) :
    ∃ (op : Operator) (n : Numeral), op.char :: n.text = text := by
  obtain ⟨between, hbetween, digits, hdigits, rfl⟩ := Language.mem_mul.1 h
  rcases mem_joint.1 hbetween with ⟨op, rfl⟩ | ⟨op, -, rfl⟩
  · obtain ⟨n, hn⟩ := exists_numeral_of_mem_number none hdigits
    exact ⟨op, n, by rw [hn]; rfl⟩
  · obtain ⟨n, hn⟩ := exists_numeral_of_mem_number (some .minus) hdigits
    exact ⟨op, n, by rw [hn]; rfl⟩

theorem exists_rest_of_mem_kstar {text : List Char} (h : text ∈ (joint * number)∗) :
    ∃ rest, Layout.restText rest = text := by
  obtain ⟨parts, rfl, hparts⟩ := Language.mem_kstar.1 h
  clear h
  induction parts with
  | nil => exact ⟨[], rfl⟩
  | cons part parts ih =>
      obtain ⟨op, n, hlink⟩ := exists_link_of_mem (hparts part List.mem_cons_self)
      obtain ⟨rest, hrest⟩ := ih fun y hy => hparts y (List.mem_cons_of_mem part hy)
      refine ⟨(op, Slot.bare n) :: rest, ?_⟩
      rw [Layout.restText_cons, Slot.text_bare, hrest, List.flatten_cons, ← hlink]
      rfl

theorem exists_layout_of_mem_chain {text : List Char} (h : text ∈ chain) :
    ∃ l : Layout, l.text = text := by
  obtain ⟨_, hfront, links, hlinks, rfl⟩ := Language.mem_mul.1 h
  obtain ⟨sign, hsign, first, hfirst, rfl⟩ := Language.mem_mul.1 hfront
  obtain ⟨n, hn⟩ : ∃ n : Numeral, n.text = sign ++ first := by
    rcases (Language.mem_add _ _ _).1 hsign with rfl | rfl
    · exact exists_numeral_of_mem_number none hfirst
    · exact exists_numeral_of_mem_number (some .minus) hfirst
  obtain ⟨rest, hrest⟩ := exists_rest_of_mem_kstar hlinks
  refine ⟨⟨Slot.bare n, rest⟩, ?_⟩
  show (Slot.bare n).text ++ Layout.restText rest = _
  rw [Slot.text_bare, hn, hrest]

theorem evaluate_of_mem_chain {text : List Char} (h : text ∈ chain) :
    ∃ outcome, evaluate text = .ok outcome ∧ outcome.IsArithmetic := by
  obtain ⟨l, rfl⟩ := exists_layout_of_mem_chain h
  exact ⟨_, l.evaluate_text .double, l.tree.isArithmetic_outcome .double⟩

/-! ## The end of a text -/

/-- The text ends in a sign whose number has not been typed. -/
def EndsInSign (text : List Char) : Prop :=
  text = ['-'] ∨ ∃ (front : List Char) (op : Operator),
    op ≠ .minus ∧ text = front ++ [op.char, '-']

/-- A chain does not end in an operator. -/
theorem exists_concat_of_mem_chain {text : List Char} (h : text ∈ chain) :
    ∃ front c, text = front ++ [c] ∧ isOperator c = false := by
  obtain ⟨p, hp, hnumber⟩ := mem_chain_iff.1 h
  rcases List.eq_nil_or_concat text with rfl | ⟨front, c, rfl⟩
  · cases hp
    cases hnumber
  · rw [List.concat_eq_append] at hp ⊢
    exact ⟨front, c, rfl, by rw [isOperator_last hp, hnumber, Bool.not_true]⟩

theorem not_endsInSign_nil : ¬EndsInSign [] := by
  rintro (h | ⟨front, op, -, h⟩) <;> simp at h

theorem not_endsInSign_of_last {front : List Char} {c : Char} (hc : isOperator c = false) :
    ¬EndsInSign (front ++ [c]) := by
  intro h
  have hlast : (front ++ [c]).getLast? = some '-' := by
    rcases h with h | ⟨front', op, -, h⟩
    · rw [h]
      rfl
    · rw [h, List.append_cons, List.getLast?_concat]
  rw [List.getLast?_concat, Option.some_inj] at hlast
  rw [hlast] at hc
  cases hc

/-- A sign that is not the whole text stands after an operator. -/
theorem not_endsInSign_of_operand {front : List Char} {c d : Char} (hc : isOperator c = false) :
    ¬EndsInSign (front ++ [c, d]) := by
  rintro (h | ⟨front', op, -, h⟩)
  · have hlength := congrArg List.length h
    simp at hlength
  · obtain ⟨-, hlast⟩ := List.append_inj' h rfl
    cases hlast
    rw [isOperator_char] at hc
    cases hc

/-- A text of the language is empty, ends in a sign, or is a chain with at most one operator
after it. -/
theorem typable_cases {text : List Char} (h : text ∈ typable) :
    text = [] ∨ EndsInSign text ∨
      ∃ front ∈ chain, text = front ∨ ∃ op : Operator, text = front ++ [op.char] := by
  rcases (Language.mem_add _ _ _).1 h with h | h
  · rcases (Language.mem_add _ _ _).1 h with rfl | rfl
    · exact Or.inl rfl
    · exact Or.inr (Or.inl (Or.inl rfl))
  · obtain ⟨front, hfront, last, hlast, rfl⟩ := Language.mem_mul.1 h
    rcases (Language.mem_add _ _ _).1 hlast with rfl | hlast
    · exact Or.inr (Or.inr ⟨front, hfront, Or.inl (List.append_nil front)⟩)
    · rcases mem_joint.1 hlast with ⟨op, rfl⟩ | ⟨op, hop, rfl⟩
      · exact Or.inr (Or.inr ⟨front, hfront, Or.inr ⟨op, rfl⟩⟩)
      · exact Or.inr (Or.inl (Or.inr ⟨front, op, hop, rfl⟩))

/-! ## Evaluation of an entry -/

/-- What is evaluated, in terms of the text read forward. -/
theorem prepare_concat (front : List Char) (c : Char) :
    prepare (front ++ [c]) =
      if isOperator c then
        if front = [] then ([], some (.failure .noOperands))
        else if c = '-' ∧ standsAsSign front.reverse then
          (front ++ [c], some (.failure .unfinishedSign))
        else (front, none)
      else (front ++ [c], none) := by
  unfold prepare
  rw [List.reverse_append]
  simp

/-- After any other character the whole text is evaluated. -/
theorem evaluateEntry_concat {front : List Char} {c : Char} (hc : isOperator c = false) :
    evaluateEntry (front ++ [c]) = evaluate (front ++ [c]) := by
  unfold evaluateEntry
  rw [prepare_concat, hc]
  rfl

/-- An operator after any other character is not evaluated. -/
theorem evaluateEntry_operator {front : List Char} {c : Char} (hc : isOperator c = false)
    (op : Operator) : evaluateEntry (front ++ [c, op.char]) = evaluate (front ++ [c]) := by
  unfold evaluateEntry
  rw [List.append_cons, prepare_concat, isOperator_char, if_pos rfl, if_neg (by simp),
    standsAsSign_concat, hc, if_neg (by simp)]

theorem evaluateEntry_of_endsInSign {text : List Char} (h : EndsInSign text) :
    ∃ f : Fault, f.kind = .malformed ∧ evaluateEntry text = .ok (.failure f) := by
  rcases h with rfl | ⟨front, op, -, rfl⟩
  · exact ⟨.noOperands, rfl, rfl⟩
  · refine ⟨.unfinishedSign, rfl, ?_⟩
    have hminus : isOperator '-' = true := rfl
    unfold evaluateEntry
    rw [List.append_cons, prepare_concat, hminus, if_pos rfl, if_neg (by simp),
      standsAsSign_concat, isOperator_char, if_pos ⟨rfl, rfl⟩]

/-- A text of the language has an outcome: that of nothing, that of a sign without its number,
or one of arithmetic. -/
theorem evaluateEntry_cases {text : List Char} (h : text ∈ typable) :
    ∃ outcome, evaluateEntry text = .ok outcome ∧
      ((text = [] ∧ outcome = .empty) ∨ (EndsInSign text ∧ outcome.IsMalformed) ∨
        (text ≠ [] ∧ ¬EndsInSign text ∧ outcome.IsArithmetic)) := by
  rcases typable_cases h with rfl | hsign | ⟨text, hchain, hend⟩
  · exact ⟨.empty, rfl, Or.inl ⟨rfl, rfl⟩⟩
  · obtain ⟨f, hkind, hf⟩ := evaluateEntry_of_endsInSign hsign
    exact ⟨.failure f, hf, Or.inr (Or.inl ⟨hsign, f, rfl, hkind⟩)⟩
  · obtain ⟨outcome, houtcome, harith⟩ := evaluate_of_mem_chain hchain
    obtain ⟨front, c, rfl, hc⟩ := exists_concat_of_mem_chain hchain
    refine ⟨outcome, ?_, Or.inr (Or.inr ⟨?_, ?_, harith⟩)⟩
    all_goals rcases hend with rfl | ⟨op, rfl⟩
    · rw [evaluateEntry_concat hc, houtcome]
    · rw [List.append_assoc]
      exact (evaluateEntry_operator hc op).trans houtcome
    · exact List.concat_ne_nil c front
    · simp
    · exact not_endsInSign_of_last hc
    · rw [List.append_assoc]
      exact not_endsInSign_of_operand hc

/-- **Evaluating what was typed.** Whatever the edits and the limit, to evaluate changes nothing
but the outcome. The outcome is empty exactly for the empty text and malformed exactly for a
text that ends in a sign. An operator after an operand is not evaluated, and nothing is wrong
with it. A text that ends in a number is evaluated as it is, and then only a division by zero
or a result out of range can go wrong. -/
theorem evaluate_afterEdits (limit places : Int) (last : Outcome) (edits : List Edit) :
    ∃ outcome,
      (Machine.mk (afterEdits limit edits) places last).press (some .evaluate) =
        .ok ⟨afterEdits limit edits, places, outcome⟩ ∧
      evaluateEntry (afterEdits limit edits).text = .ok outcome ∧
      (outcome = .empty ↔ (afterEdits limit edits).text = []) ∧
      (outcome.IsMalformed ↔ EndsInSign (afterEdits limit edits).text) ∧
      (∀ front c (op : Operator), (afterEdits limit edits).text = front ++ [c, op.char] →
        isOperator c = false →
          evaluate (front ++ [c]) = .ok outcome ∧ outcome.IsArithmetic) ∧
      ∀ front c, (afterEdits limit edits).text = front ++ [c] → isNumeric c = true →
        evaluate (afterEdits limit edits).text = .ok outcome ∧ outcome.IsArithmetic := by
  obtain ⟨outcome, houtcome, hcases⟩ := evaluateEntry_cases (afterEdits_mem_typable limit edits)
  have harith (hne : (afterEdits limit edits).text ≠ [])
      (hsign : ¬EndsInSign (afterEdits limit edits).text) : outcome.IsArithmetic := by
    rcases hcases with ⟨hnil, -⟩ | ⟨hends, -⟩ | ⟨-, -, h⟩
    · exact absurd hnil hne
    · exact absurd hends hsign
    · exact h
  refine ⟨outcome, ?_, houtcome, ?_, ?_, ?_, ?_⟩
  · show (evaluateEntry _).map _ = _
    rw [houtcome]
    rfl
  · constructor
    · rintro rfl
      rcases hcases with ⟨hnil, -⟩ | ⟨-, f, hf, -⟩ | ⟨-, -, h⟩
      · exact hnil
      · cases hf
      · exact absurd rfl h.ne_empty
    · intro hnil
      rw [hnil] at houtcome
      exact (Except.ok.inj houtcome).symm
  · constructor
    · intro hmalformed
      rcases hcases with ⟨-, rfl⟩ | ⟨hsign, -⟩ | ⟨-, -, h⟩
      · obtain ⟨f, hf, -⟩ := hmalformed
        cases hf
      · exact hsign
      · exact absurd hmalformed h.not_isMalformed
    · intro hsign
      rcases hcases with ⟨hnil, -⟩ | ⟨-, hmalformed⟩ | ⟨-, h, -⟩
      · rw [hnil] at hsign
        exact absurd hsign not_endsInSign_nil
      · exact hmalformed
      · exact absurd hsign h
  · intro front c op htext hc
    rw [htext] at harith houtcome
    rw [evaluateEntry_operator hc op] at houtcome
    exact ⟨houtcome, harith (by simp) (not_endsInSign_of_operand hc)⟩
  · intro front c htext hc
    have hlast := isOperator_of_isNumeric hc
    rw [htext] at harith houtcome ⊢
    rw [evaluateEntry_concat hlast] at houtcome
    exact ⟨houtcome, harith (List.concat_ne_nil c front) (not_endsInSign_of_last hlast)⟩

/-- The sign of `5*-` has no number, and the operator after `1/0` is not evaluated. -/
theorem evaluate_afterEdits_pending :
    (∃ outcome, evaluateEntry ['5', '*', '-'] = .ok outcome ∧ outcome.IsMalformed) ∧
    ∃ outcome, evaluateEntry ['1', '/', '0', '+'] = .ok outcome ∧
      evaluate ['1', '/', '0'] = .ok outcome ∧ outcome.IsArithmetic := by
  have hsign : (afterEdits 3 (['5', '*', '-'].map Edit.ofChar)).text = ['5', '*', '-'] := rfl
  have hquotient : (afterEdits 4 (['1', '/', '0', '+'].map Edit.ofChar)).text =
      ['1', '/', '0', '+'] := rfl
  constructor
  · obtain ⟨outcome, -, houtcome, -, hmalformed, -, -⟩ :=
      evaluate_afterEdits 3 8 .empty (['5', '*', '-'].map Edit.ofChar)
    rw [hsign] at houtcome hmalformed
    exact ⟨outcome, houtcome, hmalformed.2 (Or.inr ⟨['5'], .times, by decide, rfl⟩)⟩
  · obtain ⟨outcome, -, houtcome, -, -, hoperator, -⟩ :=
      evaluate_afterEdits 4 8 .empty (['1', '/', '0', '+'].map Edit.ofChar)
    rw [hquotient] at houtcome hoperator
    exact ⟨outcome, houtcome, hoperator ['1', '/'] '0' .plus rfl rfl⟩

end Entry

end DeskCalc
