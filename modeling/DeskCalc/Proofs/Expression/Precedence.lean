import DeskCalc.Expression.Evaluation
import DeskCalc.Proofs.Expression.Scanning

set_option autoImplicit false

/-! # The two reductions evaluate the parse tree

An expression has one parse tree in which `*` and `/` bind tighter than `+` and `-` and all four
associate to the left:

    sum  = term | sum (+|-) term
    term = number | term (*|/) number

The value of a tree is computed from its leaves up. What can go wrong on the way is read off the
list of its multiplicative steps from left to right: the first division by a divisor that counts
as zero, or the first result that is not finite, is the fault of the expression; if there is
none, the value of the tree has to be finite.

The reductions work on a list of tokens instead. The invariant is that the tokens already read
form a tree of which only two numbers are kept: what stands before the current term (`settled`)
and the value of that term (`current`). Reading one more operator and operand extends the tree
on the right (`snoc`).
-/

namespace DeskCalc

namespace Operator

/-- The operator binds tighter than the others. -/
def isMultiplicative : Operator → Bool
  | .times | .over => true
  | .plus | .minus => false

end Operator

namespace Arithmetic

variable (ops : Arithmetic)

def apply : Operator → Double → Double → Double
  | .plus => ops.add
  | .minus => ops.sub
  | .times => ops.mul
  | .over => ops.div

/-- What is wrong with a multiplicative step, if anything is: a divisor that counts as zero or
else a result that is not finite. -/
def fault? (op : Operator) (x y : Double) : Option Fault :=
  if op = .over ∧ ops.lt (ops.abs y) leastDivisor = true then some .divisionByZero
  else if ops.isFinite (ops.apply op x y) then none
  else some (.outOfRange (ops.apply op x y))

end Arithmetic

/-! ## Parse trees -/

inductive ParseTree where
  | leaf (x : Double)
  | node (op : Operator) (left right : ParseTree)

namespace ParseTree

def tokens : ParseTree → List Token
  | .leaf x => [.number x]
  | .node op left right => left.tokens ++ .ofOperator op :: right.tokens

/-- Products and quotients of numbers, nested to the left. -/
inductive IsTerm : ParseTree → Prop where
  | leaf (x : Double) : IsTerm (.leaf x)
  | node {op : Operator} {left : ParseTree} (x : Double) (hop : op.isMultiplicative = true)
      (hleft : IsTerm left) : IsTerm (.node op left (.leaf x))

/-- Sums and differences of terms, nested to the left. -/
inductive IsSum : ParseTree → Prop where
  | term {t : ParseTree} (ht : IsTerm t) : IsSum t
  | node {op : Operator} {left right : ParseTree} (hop : op.isMultiplicative = false)
      (hleft : IsSum left) (hright : IsTerm right) : IsSum (.node op left right)

section Evaluation

variable (ops : Arithmetic)

def value : ParseTree → Double
  | .leaf x => x
  | .node op left right => ops.apply op left.value right.value

/-- The multiplicative steps in the evaluation of a tree, from left to right. -/
def steps : ParseTree → List (Operator × Double × Double)
  | .leaf _ => []
  | .node op left right =>
      left.steps ++ (right.steps ++
        if op.isMultiplicative then [(op, left.value ops, right.value ops)] else [])

/-- What is wrong with the leftmost multiplicative step with which anything is wrong. -/
def fault? (t : ParseTree) : Option Fault :=
  (t.steps ops).findSome? fun (op, x, y) => ops.fault? op x y

/-- The outcome of a tree: its fault, or else its value if that is finite. -/
def outcome (t : ParseTree) : Outcome :=
  match t.fault? ops with
  | some f => .failure f
  | none =>
      if ops.isFinite (t.value ops) then .value (t.value ops)
      else .failure (.outOfRange (t.value ops))

end Evaluation

/-! ## Trees grow on the right -/

/-- The tree with one more operator and number on the right. -/
def snoc (op : Operator) (x : Double) : ParseTree → ParseTree
  | .leaf y => .node op (.leaf y) (.leaf x)
  | .node o left right =>
      if op.isMultiplicative && !o.isMultiplicative then .node o left (right.snoc op x)
      else .node op (.node o left right) (.leaf x)

theorem tokens_snoc (op : Operator) (x : Double) (t : ParseTree) :
    (t.snoc op x).tokens = t.tokens ++ [.ofOperator op, .number x] := by
  induction t with
  | leaf y => rfl
  | node o left right _ ih =>
      unfold snoc
      split
      · simp [tokens, ih]
      · simp [tokens]

theorem snoc_of_isTerm {t : ParseTree} (h : t.IsTerm) (op : Operator) (x : Double) :
    t.snoc op x = .node op t (.leaf x) := by
  cases h with
  | leaf y => rfl
  | node y hop hleft =>
      unfold snoc
      rw [hop]
      simp

theorem snoc_of_additive {op : Operator} (h : op.isMultiplicative = false) (x : Double)
    (t : ParseTree) : t.snoc op x = .node op t (.leaf x) := by
  cases t with
  | leaf y => rfl
  | node o left right =>
      unfold snoc
      rw [h]
      simp

/-- A factor after a sum goes to its last term. -/
theorem snoc_of_isSum {op o : Operator} {left right : ParseTree} (hop : op.isMultiplicative = true)
    (ho : o.isMultiplicative = false) (hright : right.IsTerm) (x : Double) :
    (ParseTree.node o left right).snoc op x = .node o left (.node op right (.leaf x)) := by
  rw [snoc, hop, ho, snoc_of_isTerm hright]
  rfl

theorem isSum_snoc {t : ParseTree} (h : t.IsSum) (op : Operator) (x : Double) :
    (t.snoc op x).IsSum := by
  cases hop : op.isMultiplicative with
  | false =>
      rw [snoc_of_additive hop]
      exact .node hop h (.leaf x)
  | true =>
      cases h with
      | term ht =>
          rw [snoc_of_isTerm ht]
          exact .term (.node x hop ht)
      | node ho hleft hright =>
          rw [snoc_of_isSum hop ho hright]
          exact .node ho hleft (.node x hop hright)

/-- A parse tree is a number, or grows from a smaller one. -/
@[elab_as_elim]
theorem IsSum.snoc_induction {motive : ParseTree → Prop} (leaf : ∀ x, motive (.leaf x))
    (snoc : ∀ (op : Operator) (x : Double) (t : ParseTree), t.IsSum → motive t →
      motive (t.snoc op x))
    {t : ParseTree} (h : t.IsSum) : motive t := by
  have hterm {t : ParseTree} (h : t.IsTerm) : motive t := by
    induction h with
    | leaf x => exact leaf x
    | @node op left x hop hleft ih =>
        rw [← snoc_of_isTerm hleft]
        exact snoc op x left (.term hleft) ih
  induction h with
  | term ht => exact hterm ht
  | @node o left right ho hleft hright ih =>
      -- the last term is a number, or the tree without its last factor is smaller
      induction hright with
      | leaf x =>
          rw [← snoc_of_additive ho]
          exact snoc o x left hleft ih
      | @node op right x hop hright ihright =>
          rw [← snoc_of_isSum hop ho hright]
          exact snoc op x (.node o left right) (.node ho hleft hright) ihright

theorem IsSum.eq_leaf_or_snoc {t : ParseTree} (h : t.IsSum) :
    (∃ x, t = .leaf x) ∨
      ∃ (op : Operator) (x : Double) (t' : ParseTree), t'.IsSum ∧ t = t'.snoc op x :=
  IsSum.snoc_induction (fun x => Or.inl ⟨x, rfl⟩)
    (fun op x t ht _ => Or.inr ⟨op, x, t, ht, rfl⟩) h

theorem tokens_ne_nil (t : ParseTree) : t.tokens ≠ [] := by
  cases t <;> simp [tokens]

theorem tokens_leaf_ne_snoc (x : Double) (op : Operator) (y : Double) (t : ParseTree) :
    (ParseTree.leaf x).tokens ≠ (t.snoc op y).tokens := by
  intro h
  have hlength := congrArg List.length h
  have hpos := List.length_pos_iff.2 t.tokens_ne_nil
  rw [tokens_snoc, List.length_append] at hlength
  simp only [tokens, List.length_cons, List.length_nil] at hlength
  omega

theorem ofOperator_injective {op op' : Operator} (h : Token.ofOperator op = Token.ofOperator op') :
    op = op' := by
  cases op <;> cases op' <;> first | rfl | exact absurd h (by decide)

/-- The tokens determine the parse tree. -/
theorem tokens_injective {t t' : ParseTree} (h : t.IsSum) (h' : t'.IsSum)
    (htokens : t.tokens = t'.tokens) : t = t' := by
  suffices hall : ∀ t' : ParseTree, t'.IsSum → t.tokens = t'.tokens → t = t' from
    hall t' h' htokens
  clear h' htokens t'
  refine IsSum.snoc_induction ?_ ?_ h
  · intro x t' h' htokens
    rcases h'.eq_leaf_or_snoc with ⟨x', rfl⟩ | ⟨op', x', u', -, rfl⟩
    · simpa [tokens] using htokens
    · exact absurd htokens (tokens_leaf_ne_snoc x op' x' u')
  · intro op x u hu ih t' h' htokens
    rcases h'.eq_leaf_or_snoc with ⟨x', rfl⟩ | ⟨op', x', u', hu', rfl⟩
    · exact absurd htokens.symm (tokens_leaf_ne_snoc x' op x u)
    · rw [tokens_snoc, tokens_snoc] at htokens
      obtain ⟨hfront, hlast⟩ := List.append_inj' htokens rfl
      obtain ⟨hop, hx⟩ := List.cons.inj hlast
      have hx' : x = x' := by simpa using hx
      rw [ofOperator_injective hop, hx', ih u' hu' hfront]

end ParseTree

/-! ## One step of a reduction -/

namespace Arithmetic

variable (ops : Arithmetic)

theorem additive?_symbol {op : Operator} (h : op.isMultiplicative = false) :
    ops.additive? op.symbol = some (ops.apply op) := by
  cases op with
  | plus => rfl
  | minus => rfl
  | _ => cases h

theorem multiplicative?_symbol_of_additive {op : Operator} (h : op.isMultiplicative = false) :
    ops.multiplicative? op.symbol = none := by
  cases op with
  | plus => rfl
  | minus => rfl
  | _ => cases h

/-- A multiplicative step stops at its fault, if it has one. -/
theorem multiplicative?_symbol {op : Operator} (h : op.isMultiplicative = true) :
    ∃ step, ops.multiplicative? op.symbol = some step ∧
      ∀ x y, step x y =
        match ops.fault? op x y with
        | some f => .error (.fault f)
        | none => .ok (ops.apply op x y) := by
  cases op with
  | plus => cases h
  | minus => cases h
  | times =>
      refine ⟨ops.product, rfl, fun x y => ?_⟩
      cases hfinite : ops.isFinite (ops.mul x y) <;>
        simp [product, inRange, fault?, apply, hfinite]
  | _ =>
      refine ⟨ops.quotient, rfl, fun x y => ?_⟩
      cases hzero : ops.lt (ops.abs y) leastDivisor <;>
        cases hfinite : ops.isFinite (ops.div x y) <;>
          simp [quotient, inRange, fault?, apply, hzero, hfinite]

end Arithmetic

section Reductions

variable (ops : Arithmetic) {op : Operator}

/-- The multiplicative reduction passes over an additive operator to the next term. -/
theorem foldProducts_additive (h : op.isMultiplicative = false) (current operand : Token)
    (rest : List Token) :
    foldProducts ops current (.ofOperator op :: operand :: rest) =
      match foldProducts ops operand rest with
      | .error halt => .error halt
      | .ok reduced => .ok (current :: .ofOperator op :: reduced) := by
  have hnone : ops.multiplicative? (Token.ofOperator op).symbol = none :=
    ops.multiplicative?_symbol_of_additive h
  rw [foldProducts]
  cases foldProducts ops operand rest <;> simp only [hnone]

theorem foldSums_additive (h : op.isMultiplicative = false) (total : Double) (operand : Token)
    (rest : List Token) :
    foldSums ops total (.ofOperator op :: operand :: rest) =
      foldSums ops (ops.apply op total operand.value) rest := by
  have hstep : ops.additive? (Token.ofOperator op).symbol = some (ops.apply op) :=
    ops.additive?_symbol h
  rw [foldSums, hstep]

end Reductions

/-! ## The reductions along a tree -/

def linkTokens (links : List (Operator × Double)) : List Token :=
  links.flatMap fun (op, x) => [.ofOperator op, .number x]

@[simp] theorem linkTokens_cons (op : Operator) (x : Double) (links : List (Operator × Double)) :
    linkTokens ((op, x) :: links) = .ofOperator op :: .number x :: linkTokens links := by
  simp [linkTokens]

namespace ParseTree

variable (ops : Arithmetic)

/-- The tree with operators and numbers added on the right. -/
def extend (t : ParseTree) (links : List (Operator × Double)) : ParseTree :=
  links.foldl (fun t (op, x) => t.snoc op x) t

/-- What the additive reduction will find before the current term. -/
def settled : ParseTree → List Token
  | .leaf _ => []
  | .node op left _ =>
      if op.isMultiplicative then [] else [.number (left.value ops), .ofOperator op]

/-- The value of the current term, which the next factor or divisor is folded into. -/
def current : ParseTree → Double
  | .leaf x => x
  | .node op left right =>
      if op.isMultiplicative then (ParseTree.node op left right).value ops else right.value ops

/-- The two reductions of the tokens that follow a tree. -/
def resume (t : ParseTree) (rest : List Token) : Except Halt Double :=
  match foldProducts ops (.number (t.current ops)) rest with
  | .error halt => .error halt
  | .ok reduced => reduceSums (t.settled ops ++ reduced) ops

theorem tokens_extend (t : ParseTree) (links : List (Operator × Double)) :
    (t.extend links).tokens = t.tokens ++ linkTokens links := by
  induction links generalizing t with
  | nil => simp [extend, linkTokens]
  | cons link links ih =>
      obtain ⟨op, x⟩ := link
      show ((t.snoc op x).extend links).tokens = _
      rw [ih, tokens_snoc, linkTokens_cons, List.append_assoc]
      rfl

theorem isSum_extend {t : ParseTree} (h : t.IsSum) (links : List (Operator × Double)) :
    (t.extend links).IsSum := by
  induction links generalizing t with
  | nil => exact h
  | cons link links ih => exact ih (isSum_snoc h link.1 link.2)

/-- The terms before the current one count by their sum. -/
theorem reduceSums_settled (t : ParseTree) (more : List Token) :
    reduceSums (t.settled ops ++ .number (t.current ops) :: more) ops =
      reduceSums (.number (t.value ops) :: more) ops := by
  cases t with
  | leaf x => rfl
  | node op left right =>
      cases hop : op.isMultiplicative with
      | true => simp [settled, current, hop]
      | false =>
          simp only [settled, current, hop, if_false, Bool.false_eq_true, List.cons_append,
            List.nil_append, reduceSums, foldSums_additive ops hop]
          rfl

theorem resume_nil (t : ParseTree) : t.resume ops [] = ops.inRange (t.value ops) := by
  show reduceSums (t.settled ops ++ [.number (t.current ops)]) ops = _
  rw [reduceSums_settled]
  rfl

/-- An additive operator settles the current term. -/
theorem resume_additive {op : Operator} (h : op.isMultiplicative = false) (x : Double)
    (t : ParseTree) (rest : List Token) :
    t.resume ops (.ofOperator op :: .number x :: rest) = (t.snoc op x).resume ops rest := by
  have hcurrent : (t.snoc op x).current ops = x := by
    rw [snoc_of_additive h]
    simp [current, h, value]
  have hsettled : (t.snoc op x).settled ops = [.number (t.value ops), .ofOperator op] := by
    rw [snoc_of_additive h]
    simp [settled, h]
  unfold resume
  rw [foldProducts_additive ops h, hcurrent, hsettled]
  cases foldProducts ops (.number x) rest with
  | error halt => rfl
  | ok reduced => exact reduceSums_settled ops t (.ofOperator op :: reduced)

/-- A factor goes into the current term, and its step comes after the others. -/
theorem current_snoc {t : ParseTree} (ht : t.IsSum) {op : Operator}
    (h : op.isMultiplicative = true) (x : Double) :
    (t.snoc op x).current ops = ops.apply op (t.current ops) x ∧
      (t.snoc op x).settled ops = t.settled ops ∧
      (t.snoc op x).steps ops = t.steps ops ++ [(op, t.current ops, x)] := by
  cases ht with
  | term ht =>
      have hcurrent : t.current ops = t.value ops := by
        cases ht with
        | leaf y => rfl
        | node y hop hleft => simp [current, hop]
      have hsettled : t.settled ops = [] := by
        cases ht with
        | leaf y => rfl
        | node y hop hleft => simp [settled, hop]
      rw [snoc_of_isTerm ht, hcurrent, hsettled]
      simp [current, settled, steps, value, h]
  | node ho hleft hright =>
      rw [snoc_of_isSum h ho hright]
      simp [current, settled, steps, value, h, ho]

/-- A multiplicative operator goes on with the current term or stops at its fault. -/
theorem resume_multiplicative {t : ParseTree} (ht : t.IsSum) {op : Operator}
    (h : op.isMultiplicative = true) (x : Double) (rest : List Token) :
    t.resume ops (.ofOperator op :: .number x :: rest) =
      match ops.fault? op (t.current ops) x with
      | some f => .error (.fault f)
      | none => (t.snoc op x).resume ops rest := by
  obtain ⟨step, hstep, hresult⟩ := ops.multiplicative?_symbol h
  obtain ⟨hcurrent, hsettled, -⟩ := current_snoc ops ht h x
  unfold resume
  rw [hcurrent, hsettled, foldProducts]
  simp only [Token.ofOperator, Token.symbol, Token.value, hstep, hresult]
  cases ops.fault? op (t.current ops) x <;> rfl

theorem fault?_snoc_of_additive {op : Operator} (h : op.isMultiplicative = false) (x : Double)
    (t : ParseTree) : (t.snoc op x).fault? ops = t.fault? ops := by
  unfold fault?
  simp [snoc_of_additive h, steps, h]

theorem fault?_snoc_of_multiplicative {t : ParseTree} (ht : t.IsSum) {op : Operator}
    (h : op.isMultiplicative = true) (x : Double) :
    (t.snoc op x).fault? ops = (t.fault? ops).or (ops.fault? op (t.current ops) x) := by
  obtain ⟨-, -, hsteps⟩ := current_snoc ops ht h x
  unfold fault?
  rw [hsteps, List.findSome?_append]
  simp

/-- A step that is wrong stays the leftmost one, whatever follows. -/
theorem fault?_extend {t : ParseTree} {f : Fault} (ht : t.IsSum) (hfault : t.fault? ops = some f)
    (links : List (Operator × Double)) : (t.extend links).fault? ops = some f := by
  induction links generalizing t with
  | nil => exact hfault
  | cons link links ih =>
      obtain ⟨op, x⟩ := link
      refine ih (isSum_snoc ht op x) ?_
      cases hop : op.isMultiplicative with
      | false => rw [fault?_snoc_of_additive ops hop, hfault]
      | true => rw [fault?_snoc_of_multiplicative ops ht hop, hfault, Option.some_or]

/-- The reductions of a list of tokens are the evaluation of the tree that it makes. -/
theorem resume_linkTokens {t : ParseTree} (ht : t.IsSum) (hfault : t.fault? ops = none)
    (links : List (Operator × Double)) :
    t.resume ops (linkTokens links) =
      match (t.extend links).fault? ops with
      | some f => .error (.fault f)
      | none => ops.inRange ((t.extend links).value ops) := by
  induction links generalizing t with
  | nil =>
      show t.resume ops [] = match t.fault? ops with
        | some f => .error (.fault f)
        | none => ops.inRange (t.value ops)
      rw [hfault, resume_nil]
  | cons link links ih =>
      obtain ⟨op, x⟩ := link
      have hsum := isSum_snoc ht op x
      have hextend : t.extend ((op, x) :: links) = (t.snoc op x).extend links := rfl
      rw [linkTokens_cons, hextend]
      cases hop : op.isMultiplicative with
      | false =>
          have hsnoc := fault?_snoc_of_additive ops hop x t
          rw [resume_additive ops hop, ih hsum (hsnoc.trans hfault)]
      | true =>
          have hsnoc := fault?_snoc_of_multiplicative ops ht hop x
          rw [hfault, Option.none_or] at hsnoc
          rw [resume_multiplicative ops ht hop]
          -- the step is the first that may be wrong, since none before it is
          cases hstep : ops.fault? op (t.current ops) x with
          | none => exact ih hsum (hsnoc.trans hstep)
          | some f => rw [fault?_extend ops hsum (hsnoc.trans hstep)]

end ParseTree

/-! ## The value of an expression -/

namespace Layout

def links (l : Layout) : List (Operator × Double) :=
  l.rest.map fun (op, slot) => (op, slot.numeral.value)

def tree (l : Layout) : ParseTree := (ParseTree.leaf l.first.numeral.value).extend l.links

theorem linkTokens_links (l : Layout) : linkTokens l.links = restTokens l.rest := by
  unfold linkTokens links restTokens
  rw [List.flatMap_map]

theorem isSum_tree (l : Layout) : l.tree.IsSum :=
  ParseTree.isSum_extend (.term (.leaf _)) l.links

theorem tokens_tree (l : Layout) : l.tree.tokens = l.tokens := by
  unfold tree
  rw [ParseTree.tokens_extend, linkTokens_links]
  rfl

theorem all_isBlank_text (l : Layout) : l.text.all isBlank = false := by
  cases hrun : l.first.numeral.run with
  | nil => exact absurd hrun l.first.numeral.run_ne_nil
  | cons c run =>
      have hc : isNumeric c = true := l.first.numeral.isNumeric_of_mem c (by simp [hrun])
      have hmem : c ∈ l.text := by simp [text, Slot.text, Numeral.text, hrun]
      refine List.all_eq_false.2 ⟨c, hmem, ?_⟩
      rw [not_isBlank_of_isNumeric hc]
      exact Bool.false_ne_true

theorem evaluate_text (l : Layout) (ops : Arithmetic) :
    evaluate l.text ops = .ok (l.tree.outcome ops) := by
  have hreduce : reduceTokens l.tokens ops =
      (ParseTree.leaf l.first.numeral.value).resume ops (linkTokens l.links) := by
    rw [linkTokens_links]
    rfl
  have hresume := ParseTree.resume_linkTokens ops
    (.term (.leaf l.first.numeral.value)) rfl l.links
  unfold evaluate
  rw [all_isBlank_text, tokenize_text]
  dsimp only
  rw [hreduce, hresume]
  show Outcome.ofReduction (match l.tree.fault? ops with
    | some f => .error (.fault f)
    | none => ops.inRange (l.tree.value ops)) = _
  unfold ParseTree.outcome
  cases l.tree.fault? ops with
  | some f => rfl
  | none =>
      unfold Arithmetic.inRange
      cases ops.isFinite (l.tree.value ops) <;> rfl

end Layout

/-- A text is blank, has a fault, or has a derivation whose tree gives the outcome. -/
theorem evaluate_cases (text : List Char) :
    (text.all isBlank = true ∧ evaluate text = .ok .empty) ∨
      (∃ f, tokenize text = .error f ∧ evaluate text = .ok (.failure f)) ∨
      ∃ l : Layout, l.text = text ∧ evaluate text = .ok (l.tree.outcome .double) := by
  cases hblank : text.all isBlank with
  | true => exact Or.inl ⟨rfl, by rw [evaluate, if_pos hblank]⟩
  | false =>
      cases htokens : tokenize text with
      | error f =>
          refine Or.inr (Or.inl ⟨f, rfl, ?_⟩)
          rw [evaluate, hblank, htokens]
          rfl
      | ok tokens =>
          obtain ⟨l, rfl, -⟩ := tokenize_eq_ok_iff.1 htokens
          exact Or.inr (Or.inr ⟨l, rfl, l.evaluate_text .double⟩)

/-- **Precedence.** The tokens of an expression have one parse tree in which `*` and `/` bind
tighter than `+` and `-` and all four associate to the left. Whatever the operations compute,
the outcome of the expression is that of this tree: the fault of the leftmost multiplicative
step that has one, else the value of the tree if it is finite. -/
theorem evaluate_eq_outcome (ops : Arithmetic) {text : List Char} {tokens : List Token}
    (h : tokenize text = .ok tokens) :
    ∃ t : ParseTree, t.IsSum ∧ t.tokens = tokens ∧
      (∀ t' : ParseTree, t'.IsSum → t'.tokens = tokens → t' = t) ∧
      evaluate text ops = .ok (t.outcome ops) := by
  obtain ⟨l, rfl, rfl⟩ := tokenize_eq_ok_iff.1 h
  refine ⟨l.tree, l.isSum_tree, l.tokens_tree, fun t' ht' htokens => ?_, l.evaluate_text ops⟩
  exact ParseTree.tokens_injective ht' l.isSum_tree (htokens.trans l.tokens_tree.symm)

/-- The product is taken before the difference. -/
theorem evaluate_eq_outcome_product :
    tokenize ['1', '-', '2', '*', '3'] =
      .ok [.number (Double.ofInt 1), .ofOperator .minus, .number (Double.ofInt 2),
        .ofOperator .times, .number (Double.ofInt 3)] ∧
    evaluate ['1', '-', '2', '*', '3'] =
      .ok ((ParseTree.node .minus (.leaf (Double.ofInt 1))
        (.node .times (.leaf (Double.ofInt 2)) (.leaf (Double.ofInt 3)))).outcome .double) ∧
    evaluate ['1', '-', '2', '*', '3'] = .ok (.value (Double.ofInt (-5))) := by
  have htokens : tokenize ['1', '-', '2', '*', '3'] =
      .ok [.number (Double.ofInt 1), .ofOperator .minus, .number (Double.ofInt 2),
        .ofOperator .times, .number (Double.ofInt 3)] := rfl
  obtain ⟨t, -, -, honly, houtcome⟩ := evaluate_eq_outcome .double htokens
  have htree := honly
    (.node .minus (.leaf (Double.ofInt 1))
      (.node .times (.leaf (Double.ofInt 2)) (.leaf (Double.ofInt 3))))
    (.node rfl (.term (.leaf _)) (.node _ rfl (.leaf _))) rfl
  refine ⟨htokens, ?_, by decide +kernel⟩
  rw [htree]
  exact houtcome

end DeskCalc
