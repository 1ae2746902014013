import Mathlib.Data.List.Forall2
import DeskCalc.Proofs.Expression.Precedence
import DeskCalc.Proofs.Readout.Coefficient

set_option autoImplicit false

/-! # Integer expressions are evaluated exactly

An expression whose numbers have digits only and whose operators are `+`, `-` and `*` stands for
an integer. It is split at `+` and `-` into terms; a term is multiplied out from left to right,
and the terms are summed from left to right (`IntSum`). All this is arithmetic of integers,
without any rounding.

If no number, no product on the way and no sum on the way exceeds `2^53` in magnitude, the
reductions compute the same integers as doubles. For the multiplicative reduction the invariant
is that the number it holds is the product of the factors so far, and for the additive one that
its total is the sum of the terms so far.
-/

namespace DeskCalc

/-! ## Sums of products -/

/-- A product of integers. -/
structure IntTerm where
  first : Int
  factors : List Int

namespace IntTerm

def product (t : IntTerm) : Int := t.factors.foldl (· * ·) t.first

/-- The products on the way, from the first factor to the whole product. -/
def partialProducts (t : IntTerm) : List Int := t.factors.scanl (· * ·) t.first

theorem partialProducts_cons (m n : Int) (factors : List Int) :
    (IntTerm.mk m (n :: factors)).partialProducts =
      m :: (IntTerm.mk (m * n) factors).partialProducts := List.scanl_cons

theorem first_mem_partialProducts (t : IntTerm) : t.first ∈ t.partialProducts :=
  List.mem_of_mem_head? List.head?_scanl

end IntTerm

/-- A sum of products of integers. The operators between the terms are `+` and `-`. -/
structure IntSum where
  first : IntTerm
  rest : List (Operator × IntTerm)

namespace IntSum

/-- Integers joined by operators, split into terms at `+` and `-`. -/
def ofLinks (first : Int) : List (Operator × Int) → IntSum
  | [] => ⟨⟨first, []⟩, []⟩
  | (op, n) :: links =>
      let s := ofLinks n links
      if op.isMultiplicative then ⟨⟨first, n :: s.first.factors⟩, s.rest⟩
      else ⟨⟨first, []⟩, (op, s.first) :: s.rest⟩

def terms (s : IntSum) : List IntTerm := s.first :: s.rest.map (·.2)

/-- The sum with one more term. -/
def step (total : Int) : Operator × IntTerm → Int
  | (op, t) => if op = .minus then total - t.product else total + t.product

def total (s : IntSum) : Int := s.rest.foldl step s.first.product

/-- The sums on the way, from the first term to the whole sum. -/
def runningSums (s : IntSum) : List Int := s.rest.scanl step s.first.product

/-- The first integer has no part in how the others are split. -/
theorem ofLinks_eq (m n : Int) (links : List (Operator × Int)) :
    ofLinks m links = ⟨⟨m, (ofLinks n links).first.factors⟩, (ofLinks n links).rest⟩ := by
  cases links with
  | nil => rfl
  | cons link links =>
      simp only [ofLinks]
      split <;> rfl

theorem ofLinks_multiplicative {op : Operator} (h : op.isMultiplicative = true) (m n : Int)
    (links : List (Operator × Int)) :
    ofLinks m ((op, n) :: links) =
      ⟨⟨m, n :: (ofLinks (m * n) links).first.factors⟩, (ofLinks (m * n) links).rest⟩ := by
  rw [ofLinks_eq (m * n) n links, ofLinks, if_pos h]

theorem ofLinks_additive {op : Operator} (h : op.isMultiplicative = false) (m n : Int)
    (links : List (Operator × Int)) :
    ofLinks m ((op, n) :: links) =
      ⟨⟨m, []⟩, (op, (ofLinks n links).first) :: (ofLinks n links).rest⟩ := by
  rw [ofLinks, if_neg (by simp [h])]

end IntSum

/-! ## The reductions of integers -/

/-- A double after an operator has the value of an integer after the same operator. -/
def LinkIsInt (link : Operator × Double) (n : Operator × Int) : Prop :=
  link.1 = n.1 ∧ link.2.IsInt n.2

/-- A double after an additive operator has the value of a term after the same operator. -/
def TermIsInt (link : Operator × Double) (term : Operator × IntTerm) : Prop :=
  link.1 = term.1 ∧ link.1.isMultiplicative = false ∧ link.2.IsInt term.2.product

theorem foldProducts_times {x y : Double} (h : (x.mul y).isFinite = true) (rest : List Token) :
    foldProducts .double (.number x) (.ofOperator .times :: .number y :: rest) =
      foldProducts .double (.number (x.mul y)) rest := by
  have hstep : Arithmetic.double.product x y = .ok (x.mul y) := if_pos h
  have hsymbol : Arithmetic.double.multiplicative? (Token.ofOperator .times).symbol =
      some Arithmetic.double.product := rfl
  rw [foldProducts, hsymbol]
  simp only [Token.value, hstep]

/-- The multiplicative reduction leaves the products of the terms. -/
theorem foldProducts_integers {links : List (Operator × Double)} {ints : List (Operator × Int)}
    (hlinks : List.Forall₂ LinkIsInt links ints) (hover : ∀ link ∈ ints, link.1 ≠ .over)
    {x : Double} {m : Int} (hx : x.IsInt m)
    (hexact : ∀ t ∈ (IntSum.ofLinks m ints).terms, ∀ p ∈ t.partialProducts, Double.IsExact p) :
    ∃ (y : Double) (terms : List (Operator × Double)),
      foldProducts .double (.number x) (linkTokens links) = .ok (.number y :: linkTokens terms) ∧
      y.IsInt (IntSum.ofLinks m ints).first.product ∧
      List.Forall₂ TermIsInt terms (IntSum.ofLinks m ints).rest := by
  induction hlinks generalizing x m with
  | nil => exact ⟨x, [], rfl, hx, .nil⟩
  | @cons link int links ints hlink _ ih =>
      obtain ⟨op, d⟩ := link
      obtain ⟨op', n⟩ := int
      obtain ⟨rfl, hd⟩ : op = op' ∧ d.IsInt n := hlink
      obtain ⟨hop, hover'⟩ := List.forall_mem_cons.1 hover
      rw [linkTokens_cons]
      cases hmul : op.isMultiplicative with
      | true =>
          -- the product goes on with the next factor, and has to be exact so far
          obtain rfl : op = .times := by
            cases op with
            | plus => cases hmul
            | minus => cases hmul
            | times => rfl
            | _ => exact absurd rfl hop
          rw [IntSum.ofLinks_multiplicative hmul] at hexact ⊢
          obtain ⟨hfirst, hrest⟩ := List.forall_mem_cons.1 hexact
          rw [IntTerm.partialProducts_cons] at hfirst
          obtain ⟨-, hfirst⟩ := List.forall_mem_cons.1 hfirst
          have hterm : (IntSum.ofLinks (m * n) ints).first =
              ⟨m * n, (IntSum.ofLinks (m * n) ints).first.factors⟩ := by
            rw [IntSum.ofLinks_eq (m * n) (m * n) ints]
          have hproduct := hx.mul hd
            (hfirst _ (IntTerm.first_mem_partialProducts _))
          rw [foldProducts_times hproduct.isFinite]
          rw [← hterm] at hfirst
          obtain ⟨y, terms, hfold, hy, hterms⟩ :=
            ih hover' hproduct (List.forall_mem_cons.2 ⟨hfirst, hrest⟩)
          refine ⟨y, terms, hfold, ?_, hterms⟩
          rw [hterm] at hy
          exact hy
      | false =>
          -- the product is complete, and another begins
          rw [IntSum.ofLinks_additive hmul] at hexact ⊢
          obtain ⟨-, hrest⟩ := List.forall_mem_cons.1 hexact
          obtain ⟨y, terms, hfold, hy, hterms⟩ := ih hover' hd hrest
          refine ⟨x, (op, y) :: terms, ?_, hx, .cons ⟨rfl, hmul, hy⟩ hterms⟩
          rw [foldProducts_additive .double hmul, hfold, linkTokens_cons]

/-- The additive reduction sums the terms. -/
theorem foldSums_integers {links : List (Operator × Double)} {terms : List (Operator × IntTerm)}
    (hlinks : List.Forall₂ TermIsInt links terms)
    {x : Double} {m : Int} (hx : x.IsInt m)
    (hexact : ∀ p ∈ terms.scanl IntSum.step m, Double.IsExact p) :
    ∃ y, foldSums .double x (linkTokens links) = .ok y ∧
      y.IsInt (terms.foldl IntSum.step m) := by
  induction hlinks generalizing x m with
  | nil => exact ⟨x, rfl, hx⟩
  | @cons link term links terms hlink _ ih =>
      obtain ⟨op, d⟩ := link
      obtain ⟨op', t⟩ := term
      obtain ⟨rfl, hop, hd⟩ : op = op' ∧ op.isMultiplicative = false ∧ d.IsInt t.product := hlink
      rw [List.scanl_cons] at hexact
      obtain ⟨-, hexact⟩ := List.forall_mem_cons.1 hexact
      have hhead : Double.IsExact (IntSum.step m (op, t)) :=
        hexact _ (List.mem_of_mem_head? List.head?_scanl)
      have hsum : (Arithmetic.double.apply op x d).IsInt (IntSum.step m (op, t)) := by
        cases op with
        | plus => exact hx.add hd hhead
        | minus => exact hx.sub hd hhead
        | _ => cases hop
      rw [linkTokens_cons, foldSums_additive .double hop]
      exact ih hsum hexact

/-! ## Integers on show -/

theorem Digits.ofList_ofInt (n : Int) : String.ofList (Digits.ofInt n) = toString n := by
  rw [Int.toString_eq_repr, Int.repr_eq_if, Nat.repr_eq_ofList_toDigits,
    Nat.repr_eq_ofList_toDigits]
  unfold Digits.ofInt
  by_cases h : n < 0
  · have hnatAbs : n.natAbs = (-n).toNat := by omega
    rw [if_pos h, if_neg (by omega), hnatAbs, ← List.singleton_append, String.ofList_append]
  · have hnatAbs : n.natAbs = n.toNat := by omega
    rw [if_neg h, if_pos (by omega), hnatAbs]

/-- An integer is shown as it is written, for any number of places; zero never has a sign. -/
theorem showNumber_of_isInt {x : Double} {n : Int} (h : x.IsInt n) (places : Int) :
    showNumber x places = .ok (toString n) := by
  obtain ⟨s, hunits, rfl, hn⟩ := Double.isInt_iff.1 h
  rw [showNumber, Readout.numberChars_eq, Readout.coefficient_mul_unitsPerOne,
    Readout.signedText_trimmedFixed, hn, ← Digits.ofList_ofInt]
  rfl

/-! ## Integer expressions -/

namespace Numeral

/-- The integer that a number without a point stands for. -/
def integer (n : Numeral) : Int := Double.signedUnits n.negative (Nat.ofDigitChars 10 n.run 0)

theorem isInt_value {n : Numeral} (hdigits : ∀ c ∈ n.run, c.isDigit = true)
    (hexact : Double.IsExact n.integer) : n.value.IsInt n.integer := by
  have hmagnitude : Nat.ofDigitChars 10 n.run 0 ≤ pow2 53 := by
    unfold Double.IsExact integer at hexact
    rwa [Double.natAbs_signedUnits] at hexact
  rw [value_eq, decimalOf_digits hdigits]
  show (Double.ofUnitRatio n.negative
    (Nat.ofDigitChars 10 n.run 0 * pow10 0 * Double.unitsPerOne) 1).IsInt _
  rw [pow10_zero, Nat.mul_one]
  exact Double.isInt_ofUnits hmagnitude

end Numeral

namespace Layout

def numerals (l : Layout) : List Numeral := l.first.numeral :: l.rest.map (·.2.numeral)

/-- The integers of an expression, split into terms. -/
def integers (l : Layout) : IntSum :=
  .ofLinks l.first.numeral.integer (l.rest.map fun (op, slot) => (op, slot.numeral.integer))

/-- All numbers have digits only, and nothing is divided. -/
structure IsIntegral (l : Layout) : Prop where
  digits : ∀ n ∈ l.numerals, ∀ c ∈ n.run, c.isDigit = true
  operators : ∀ link ∈ l.rest, link.1 ≠ .over

/-- No number, no product on the way and no sum on the way is too large to be exact. -/
structure IsExact (l : Layout) : Prop where
  numbers : ∀ n ∈ l.numerals, Double.IsExact n.integer
  products : ∀ t ∈ l.integers.terms, ∀ p ∈ t.partialProducts, Double.IsExact p
  sums : ∀ p ∈ l.integers.runningSums, Double.IsExact p

instance (l : Layout) : Decidable l.IsIntegral :=
  decidable_of_iff ((∀ n ∈ l.numerals, n.run.all Char.isDigit = true) ∧ ∀ link ∈ l.rest, _)
    ⟨fun ⟨hdigits, hoperators⟩ => ⟨fun n hn => List.all_eq_true.1 (hdigits n hn), hoperators⟩,
      fun ⟨hdigits, hoperators⟩ => ⟨fun n hn => List.all_eq_true.2 (hdigits n hn), hoperators⟩⟩

instance (l : Layout) : Decidable l.IsExact :=
  decidable_of_iff (_ ∧ _ ∧ _) ⟨fun ⟨hnumbers, hproducts, hsums⟩ => ⟨hnumbers, hproducts, hsums⟩,
    fun ⟨hnumbers, hproducts, hsums⟩ => ⟨hnumbers, hproducts, hsums⟩⟩

theorem evaluate_isInt {l : Layout} (hint : l.IsIntegral) (hexact : l.IsExact) :
    ∃ x, evaluate l.text = .ok (.value x) ∧ x.IsInt l.integers.total := by
  have hvalue (n : Numeral) (hn : n ∈ l.numerals) : n.value.IsInt n.integer :=
    Numeral.isInt_value (hint.digits n hn) (hexact.numbers n hn)
  have hlinks : List.Forall₂ LinkIsInt l.links
      (l.rest.map fun (op, slot) => (op, slot.numeral.integer)) := by
    unfold links
    rw [List.forall₂_map_left_iff, List.forall₂_map_right_iff, List.forall₂_same]
    intro link hlink
    exact ⟨rfl, hvalue _ (List.mem_cons_of_mem _ (List.mem_map_of_mem hlink))⟩
  have hover : ∀ link ∈ l.rest.map fun (op, slot) => (op, slot.numeral.integer),
      link.1 ≠ .over := List.forall_mem_map.2 hint.operators
  obtain ⟨y, terms, hproducts, hy, hterms⟩ :=
    foldProducts_integers hlinks hover (hvalue _ List.mem_cons_self) hexact.products
  obtain ⟨z, hsums, hz⟩ := foldSums_integers hterms hy hexact.sums
  refine ⟨z, ?_, hz⟩
  have hreduce : reduceTokens l.tokens = .ok z := by
    have htokens : l.tokens = .number l.first.numeral.value :: linkTokens l.links := by
      rw [linkTokens_links]
      rfl
    have hrange : Arithmetic.double.inRange z = .ok z := if_pos hz.isFinite
    rw [htokens]
    unfold reduceTokens reduceProducts
    dsimp only
    rw [hproducts]
    unfold reduceSums
    dsimp only [Token.value]
    rw [hsums]
    exact hrange
  unfold evaluate
  rw [all_isBlank_text, tokenize_text]
  dsimp only
  rw [hreduce]
  rfl

end Layout

/-- **Integer expressions.** Let an expression have numbers of digits only and no division. If no
number, product on the way or sum on the way exceeds `2^53` in magnitude, the expression has the
value that integer arithmetic gives, and that integer is what is shown, for any number of places. -/
theorem evaluate_integers {text : List Char} {tokens : List Token}
    (h : tokenize text = .ok tokens) :
    ∃ l : Layout, l.text = text ∧ l.tokens = tokens ∧ (∀ l' : Layout, l'.text = text → l' = l) ∧
      (l.IsIntegral → l.IsExact →
        ∃ x, evaluate text = .ok (.value x) ∧ x.IsInt l.integers.total ∧
          ∀ places, showNumber x places = .ok (toString l.integers.total)) := by
  obtain ⟨l, rfl, rfl⟩ := tokenize_eq_ok_iff.1 h
  refine ⟨l, rfl, rfl, fun l' hl' => Layout.text_injective hl', fun hint hexact => ?_⟩
  obtain ⟨x, hx, hvalue⟩ := Layout.evaluate_isInt hint hexact
  exact ⟨x, hx, hvalue, showNumber_of_isInt hvalue⟩

/-- The product of `-0` and `5` is zero, and is shown without a sign. -/
theorem evaluate_integers_zero :
    ∃ x, evaluate ['-', '0', '*', '5'] = .ok (.value x) ∧ x.IsInt 0 ∧
      ∀ places, showNumber x places = .ok "0" := by
  let zero : Numeral := ⟨some .minus, ['0'], by simp, List.forall_mem_singleton.2 rfl, by decide⟩
  let five : Numeral := ⟨none, ['5'], by simp, List.forall_mem_singleton.2 rfl, by decide⟩
  let product : Layout := ⟨.bare zero, [(.times, .bare five)]⟩
  obtain ⟨tokens, htokens⟩ : ∃ tokens, tokenize ['-', '0', '*', '5'] = .ok tokens := ⟨_, rfl⟩
  obtain ⟨l, -, -, honly, hvalue⟩ := evaluate_integers htokens
  obtain rfl : product = l := honly product rfl
  have hintegers : product.integers.total = 0 := by decide
  have hshown : ∃ x, evaluate ['-', '0', '*', '5'] = .ok (.value x) ∧
      x.IsInt product.integers.total ∧
        ∀ places, showNumber x places = .ok (toString product.integers.total) :=
    hvalue (by decide) (by decide)
  rwa [hintegers] at hshown

end DeskCalc
