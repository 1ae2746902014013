import Mathlib.Computability.Language
import Mathlib.Order.CompletePartialOrder
import DeskCalc.Entry

set_option autoImplicit false

/-! # The language of the entry line

Every text that can be typed belongs to one regular language. With `N` for a number (digits,
and perhaps a point and more digits) and `B` for what stands between two numbers (an operator,
or an operator other than the minus and the sign of the next number), it consists of the empty
text, the text `-` and the texts

    [-] N (B N)* [B]

`typable` is this language, written with the operations on languages. To follow it from one
character to the next, the file reads a text into a *phase*, which is what the end of the text
says about the characters that may come next (`Phase.next`). Reading succeeds exactly on the
language (`mem_typable_iff`), and it ends within a number exactly on the texts without the last
`[B]` (`mem_chain_iff`).
-/

namespace DeskCalc.Entry

open scoped Computability

/-! ## The grammar -/

def digit : Language Char := {text | ∃ c : Char, c.isDigit = true ∧ text = [c]}

def digits : Language Char := digit * digit∗

/-- A number: digits, and perhaps a point and any digits. -/
def number : Language Char := digits * (1 + {['.']} * digit∗)

/-- What stands between two numbers: an operator, or an operator other than the minus and the
sign of the next number. -/
def joint : Language Char :=
  {text | (∃ op : Operator, text = [op.char]) ∨
    ∃ op : Operator, op ≠ .minus ∧ text = [op.char, '-']}

/-- Numbers with joints between them; the first number may have a sign. -/
def chain : Language Char := (1 + {['-']}) * number * (joint * number)∗

/-- The texts of the entry line. -/
def typable : Language Char := 1 + {['-']} + chain * (1 + joint)

/-- A text after which a number is due. -/
def opening : Language Char := 1 + {['-']} + chain * joint

theorem mem_single {c : Char} {text : List Char} :
    text ∈ ({[c]} : Language Char) ↔ text = [c] := Iff.rfl

theorem mem_joint {text : List Char} :
    text ∈ joint ↔ (∃ op : Operator, text = [op.char]) ∨
      ∃ op : Operator, op ≠ .minus ∧ text = [op.char, '-'] := Iff.rfl

theorem mem_kstar_digit {text : List Char} :
    text ∈ digit∗ ↔ ∀ c ∈ text, c.isDigit = true := by
  rw [Language.mem_kstar]
  constructor
  · rintro ⟨parts, rfl, hparts⟩ c hc
    obtain ⟨part, hpart, hc⟩ := List.mem_flatten.1 hc
    obtain ⟨d, hd, rfl⟩ := hparts part hpart
    rwa [List.mem_singleton.1 hc]
  · intro h
    refine ⟨text.map ([·]), by simp [← List.flatMap_def], fun part hpart => ?_⟩
    obtain ⟨c, hc, rfl⟩ := List.mem_map.1 hpart
    exact ⟨c, h c hc, rfl⟩

theorem digits_mul_digit_le : digits * digit ≤ digits := by
  unfold digits
  rw [mul_assoc]
  exact mul_le_mul_right kstar_mul_le_kstar digit

theorem opening_mul_number_le : opening * number ≤ chain := by
  unfold opening
  rw [add_mul, mul_assoc]
  refine add_le ?_ ?_
  · exact le_mul_of_one_le_right' one_le_kstar
  · unfold chain
    rw [mul_assoc _ _ (joint * number)]
    exact mul_le_mul_right kstar_mul_le_kstar _

theorem chain_le_typable : chain ≤ typable :=
  le_add_left (le_mul_of_one_le_right' le_self_add)

theorem chain_mul_joint_le_typable : chain * joint ≤ typable :=
  le_add_left (mul_le_mul_right le_add_self chain)

/-! ## Phases -/

/-- What the end of a text says about the characters that may come next. -/
inductive Phase where
  /-- Nothing has been typed. -/
  | start
  /-- The text is a single minus sign. -/
  | sign
  /-- The text ends within a number that has no point. -/
  | whole
  /-- The text ends within a number that has a point. -/
  | fraction
  /-- The text ends in an operator after a number. -/
  | operator (op : Operator)
  /-- The text ends in a minus sign after an operator. -/
  | operatorSign
  deriving DecidableEq, Repr

namespace Phase

def inNumber : Phase → Bool
  | .whole | .fraction => true
  | _ => false

def afterDigit : Phase → Phase
  | .fraction => .fraction
  | _ => .whole

def afterPoint : Phase → Option Phase
  | .whole => some .fraction
  | _ => none

def afterOperator (op : Operator) : Phase → Option Phase
  | .start => if op = .minus then some .sign else none
  | .whole | .fraction => some (.operator op)
  | .operator before => if op = .minus ∧ before ≠ .minus then some .operatorSign else none
  | .sign | .operatorSign => none

/-- The phase after a character, if it may come next. -/
def next (p : Phase) (c : Char) : Option Phase :=
  if c.isDigit then some p.afterDigit
  else if c = '.' then p.afterPoint
  else (Operator.ofChar? c).bind fun op => p.afterOperator op

/-- The phase after a text that follows a given phase. -/
def read (p : Phase) (text : List Char) : Option Phase := text.foldlM next p

theorem read_append (p : Phase) (first second : List Char) :
    p.read (first ++ second) = (p.read first).bind fun q => q.read second :=
  List.foldlM_append

@[simp] theorem read_singleton (p : Phase) (c : Char) : p.read [c] = p.next c := by
  simp [read]

theorem read_concat_eq_some {p q : Phase} {text : List Char} {c : Char} :
    p.read (text ++ [c]) = some q ↔ ∃ r, p.read text = some r ∧ r.next c = some q := by
  rw [read_append, Option.bind_eq_some_iff]
  simp

theorem next_digit (p : Phase) {c : Char} (h : c.isDigit = true) :
    p.next c = some p.afterDigit := if_pos h

theorem next_point (p : Phase) : p.next '.' = p.afterPoint := rfl

theorem next_operator (p : Phase) (op : Operator) : p.next op.char = p.afterOperator op := by
  cases op <;> rfl

/-- What a character does: it is a digit, a point within a whole number or an operator. -/
theorem next_cases {p q : Phase} {c : Char} (h : p.next c = some q) :
    (c.isDigit = true ∧ q = p.afterDigit) ∨ (c = '.' ∧ p = .whole ∧ q = .fraction) ∨
      ∃ op : Operator, c = op.char ∧ p.afterOperator op = some q := by
  unfold next at h
  split at h
  · rename_i hdigit
    exact Or.inl ⟨hdigit, by simpa using h.symm⟩
  · split at h
    · rename_i hpoint
      refine Or.inr (Or.inl ⟨hpoint, ?_⟩)
      cases p <;> simp_all [afterPoint]
    · obtain ⟨op, hop, hq⟩ := Option.bind_eq_some_iff.1 h
      exact Or.inr (Or.inr ⟨op, Operator.ofChar?_eq_some_iff.1 hop, hq⟩)

/-- What an operator does: it begins the text with a sign, it follows a number, or it is the
sign of the next number. -/
theorem afterOperator_cases {p q : Phase} {op : Operator} (h : p.afterOperator op = some q) :
    (p = .start ∧ op = .minus ∧ q = .sign) ∨ (p.inNumber = true ∧ q = .operator op) ∨
      ∃ before, p = .operator before ∧ before ≠ .minus ∧ op = .minus ∧ q = .operatorSign := by
  cases p <;> simp_all [afterOperator, inNumber]

/-- A digit within a number leaves the phase as it is. -/
theorem afterDigit_of_inNumber {p : Phase} (h : p.inNumber = true) : p.afterDigit = p := by
  cases p <;> first | rfl | cases h

theorem afterDigit_of_not_inNumber {p : Phase} (h : p.inNumber = false) :
    p.afterDigit = .whole := by
  cases p <;> first | rfl | cases h

theorem afterOperator_of_inNumber {p : Phase} (h : p.inNumber = true) (op : Operator) :
    p.afterOperator op = some (.operator op) := by
  cases p <;> first | rfl | cases h

end Phase

/-- The phase at the end of a text, if it can be typed. -/
def phase? (text : List Char) : Option Phase := Phase.start.read text

@[simp] theorem phase?_nil : phase? [] = some .start := rfl

theorem phase?_append (first second : List Char) :
    phase? (first ++ second) = (phase? first).bind fun p => p.read second :=
  Phase.read_append _ first second

theorem phase?_concat_eq_some {text : List Char} {c : Char} {p : Phase} :
    phase? (text ++ [c]) = some p ↔ ∃ q, phase? text = some q ∧ q.next c = some p :=
  Phase.read_concat_eq_some

/-! ## Reading accepts nothing but the language -/

/-- The texts that end in a phase. -/
def Phase.language : Phase → Language Char
  | .start => 1
  | .sign => {['-']}
  | .whole => opening * digits
  | .fraction => opening * (digits * ({['.']} * digit∗))
  | .operator op => chain * {[op.char]}
  | .operatorSign => chain * joint

theorem Phase.language_le_opening {p : Phase} (h : p.inNumber = false) :
    p.language ≤ opening := by
  cases p with
  | start => exact le_add_right le_self_add
  | sign => exact le_add_right le_add_self
  | whole => cases h
  | fraction => cases h
  | operator op =>
      refine le_add_left (mul_le_mul_right ?_ chain)
      rintro _ rfl
      exact mem_joint.2 (Or.inl ⟨op, rfl⟩)
  | operatorSign => exact le_add_self

theorem Phase.language_le_chain {p : Phase} (h : p.inNumber = true) : p.language ≤ chain := by
  cases p with
  | whole =>
      refine le_trans (mul_le_mul_right ?_ opening) opening_mul_number_le
      exact le_mul_of_one_le_right' le_self_add
  | fraction =>
      refine le_trans (mul_le_mul_right ?_ opening) opening_mul_number_le
      exact mul_le_mul_right le_add_self digits
  | _ => cases h

theorem Phase.language_mul_digit_le (p : Phase) :
    p.language * digit ≤ p.afterDigit.language := by
  cases hp : p.inNumber with
  | false =>
      rw [afterDigit_of_not_inNumber hp]
      exact mul_le_mul' (language_le_opening hp) (le_mul_of_one_le_right' one_le_kstar)
  | true =>
      cases p with
      | whole =>
          show opening * digits * digit ≤ opening * digits
          rw [mul_assoc]
          exact mul_le_mul_right digits_mul_digit_le opening
      | fraction =>
          show opening * (digits * ({['.']} * digit∗)) * digit ≤ _
          simp only [mul_assoc]
          refine mul_le_mul_right (mul_le_mul_right (mul_le_mul_right ?_ _) _) _
          exact kstar_mul_le_kstar
      | _ => cases hp

/-- A character after a text of one phase makes a text of the next. -/
theorem Phase.mem_language_next {p q : Phase} {text : List Char} {c : Char}
    (htext : text ∈ p.language) (h : p.next c = some q) : text ++ [c] ∈ q.language := by
  rcases next_cases h with ⟨hc, rfl⟩ | ⟨rfl, rfl, rfl⟩ | ⟨op, rfl, hop⟩
  · exact p.language_mul_digit_le (Language.append_mem_mul htext ⟨c, hc, rfl⟩)
  · have hpoint : ['.'] ∈ ({['.']} * digit∗ : Language Char) :=
      Language.append_mem_mul (mem_single.2 rfl) (Language.nil_mem_kstar digit)
    obtain ⟨u, hu, v, hv, rfl⟩ := Language.mem_mul.1 htext
    rw [List.append_assoc]
    exact Language.append_mem_mul hu (Language.append_mem_mul hv hpoint)
  · rcases afterOperator_cases hop with ⟨rfl, rfl, rfl⟩ | ⟨hp, rfl⟩ | ⟨before, rfl, hne, rfl, rfl⟩
    · rw [show text = [] from htext]
      exact mem_single.2 rfl
    · exact Language.append_mem_mul (language_le_chain hp htext) (mem_single.2 rfl)
    · obtain ⟨u, hu, v, hv, rfl⟩ := Language.mem_mul.1 htext
      rw [mem_single.1 hv, List.append_assoc]
      exact Language.append_mem_mul hu (mem_joint.2 (Or.inr ⟨before, hne, rfl⟩))

theorem mem_language_of_phase? {text : List Char} {p : Phase} (h : phase? text = some p) :
    text ∈ p.language := by
  induction text using List.reverseRecOn generalizing p with
  | nil =>
      rw [phase?_nil, Option.some_inj] at h
      exact h ▸ Language.nil_mem_one
  | append_singleton text c ih =>
      obtain ⟨q, hq, hnext⟩ := phase?_concat_eq_some.1 h
      exact Phase.mem_language_next (ih hq) hnext

/-! ## Reading accepts all of the language -/

namespace Phase

theorem read_kstar_digit {p : Phase} (hp : p.inNumber = true) {text : List Char}
    (h : text ∈ digit∗) : p.read text = some p := by
  rw [mem_kstar_digit] at h
  induction text with
  | nil => rfl
  | cons c text ih =>
      rw [← List.singleton_append, read_append, read_singleton, next_digit p (h c (by simp)),
        Option.bind_some, afterDigit_of_inNumber hp]
      exact ih fun d hd => h d (by simp [hd])

/-- Where a number is due, a number can be read. -/
theorem read_number {p : Phase} (hp : p.inNumber = false) {text : List Char}
    (h : text ∈ number) : ∃ q, q.inNumber = true ∧ p.read text = some q := by
  obtain ⟨first, hfirst, rest, hrest, rfl⟩ := Language.mem_mul.1 h
  have hwhole : p.read first = some .whole := by
    obtain ⟨_, ⟨c, hc, rfl⟩, more, hmore, rfl⟩ := Language.mem_mul.1 hfirst
    rw [read_append, read_singleton, next_digit p hc, Option.bind_some,
      afterDigit_of_not_inNumber hp]
    exact read_kstar_digit rfl hmore
  rw [read_append, hwhole, Option.bind_some]
  rcases (Language.mem_add _ _ _).1 hrest with rfl | hrest
  · exact ⟨.whole, rfl, rfl⟩
  · obtain ⟨_, rfl, places, hplaces, rfl⟩ := Language.mem_mul.1 hrest
    refine ⟨.fraction, rfl, ?_⟩
    rw [read_append, read_singleton, next_point, afterPoint, Option.bind_some]
    exact read_kstar_digit rfl hplaces

/-- After a number, a joint can be read, and a number is due after it. -/
theorem read_joint {p : Phase} (hp : p.inNumber = true) {text : List Char} (h : text ∈ joint) :
    ∃ q, q.inNumber = false ∧ p.read text = some q := by
  rcases mem_joint.1 h with ⟨op, rfl⟩ | ⟨op, hop, rfl⟩
  · exact ⟨.operator op, rfl, by
      rw [read_singleton, next_operator, afterOperator_of_inNumber hp]⟩
  · refine ⟨.operatorSign, rfl, ?_⟩
    rw [← List.singleton_append, read_append, read_singleton, next_operator,
      afterOperator_of_inNumber hp, Option.bind_some, read_singleton]
    exact (next_operator _ .minus).trans (if_pos ⟨rfl, hop⟩)

theorem read_kstar_link {p : Phase} (hp : p.inNumber = true) {text : List Char}
    (h : text ∈ (joint * number)∗) : ∃ q, q.inNumber = true ∧ p.read text = some q := by
  obtain ⟨links, rfl, hlinks⟩ := Language.mem_kstar.1 h
  induction links generalizing p with
  | nil => exact ⟨p, hp, rfl⟩
  | cons link links ih =>
      obtain ⟨u, hu, v, hv, rfl⟩ := Language.mem_mul.1 (hlinks _ List.mem_cons_self)
      obtain ⟨q, hq, hread⟩ := read_joint hp hu
      obtain ⟨r, hr, hread'⟩ := read_number hq hv
      have hrest := fun y hy => hlinks y (List.mem_cons_of_mem _ hy)
      obtain ⟨s, hs, hread''⟩ := ih hr hrest (Language.join_mem_kstar hrest)
      refine ⟨s, hs, ?_⟩
      rw [List.flatten_cons, read_append, read_append, hread, Option.bind_some, hread',
        Option.bind_some, hread'']

end Phase

/-- Reading ends within a number exactly on the chains. -/
theorem mem_chain_iff {text : List Char} :
    text ∈ chain ↔ ∃ p, phase? text = some p ∧ p.inNumber = true := by
  constructor
  · intro h
    obtain ⟨_, hfront, links, hlinks, rfl⟩ := Language.mem_mul.1 h
    obtain ⟨lead, hlead, first, hfirst, rfl⟩ := Language.mem_mul.1 hfront
    obtain ⟨p, hp, hread⟩ : ∃ p : Phase, p.inNumber = false ∧ phase? lead = some p := by
      rcases (Language.mem_add _ _ _).1 hlead with rfl | rfl
      · exact ⟨.start, rfl, rfl⟩
      · exact ⟨.sign, rfl, rfl⟩
    obtain ⟨q, hq, hread'⟩ := Phase.read_number hp hfirst
    obtain ⟨r, hr, hread''⟩ := Phase.read_kstar_link hq hlinks
    refine ⟨r, ?_, hr⟩
    rw [phase?_append, phase?_append, hread, Option.bind_some, hread', Option.bind_some, hread'']
  · rintro ⟨p, hp, hnumber⟩
    exact Phase.language_le_chain hnumber (mem_language_of_phase? hp)

/-- Reading succeeds exactly on the language. -/
theorem mem_typable_iff {text : List Char} : text ∈ typable ↔ ∃ p, phase? text = some p := by
  constructor
  · intro h
    rcases (Language.mem_add _ _ _).1 h with h | h
    · rcases (Language.mem_add _ _ _).1 h with rfl | rfl
      · exact ⟨.start, rfl⟩
      · exact ⟨.sign, rfl⟩
    · obtain ⟨u, hu, v, hv, rfl⟩ := Language.mem_mul.1 h
      obtain ⟨p, hp, hnumber⟩ := mem_chain_iff.1 hu
      rcases (Language.mem_add _ _ _).1 hv with rfl | hv
      · exact ⟨p, by rwa [List.append_nil]⟩
      · obtain ⟨q, -, hq⟩ := Phase.read_joint hnumber hv
        exact ⟨q, by rw [phase?_append, hp, Option.bind_some, hq]⟩
  · rintro ⟨p, hp⟩
    have htext := mem_language_of_phase? hp
    cases hnumber : p.inNumber with
    | true => exact chain_le_typable (Phase.language_le_chain hnumber htext)
    | false =>
        have hopening : opening ≤ typable :=
          add_le (le_add_right le_rfl) chain_mul_joint_le_typable
        exact hopening (Phase.language_le_opening hnumber htext)

instance (text : List Char) : Decidable (text ∈ typable) :=
  decidable_of_iff ((phase? text).isSome = true)
    (Option.isSome_iff_exists.trans mem_typable_iff.symm)

end DeskCalc.Entry
