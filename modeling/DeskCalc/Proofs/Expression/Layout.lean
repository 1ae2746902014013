import DeskCalc.Proofs.Double.Exact
import DeskCalc.Expression.Scan

set_option autoImplicit false

/-! # The grammar of expressions

An expression is derived from

    W num W (op W num W)*

where `W` is any run of blanks, `op` one of the four operators and `num` an optional sign with,
directly after it, a run of digits and points that is not empty and has at most one point. A
`Layout` is such a derivation. It has a text, the tokens that the text stands for, and a
content, which is the derivation without its blanks.

A text has at most one derivation (`Layout.text_injective`): a run of blanks ends where a
character is not blank, and a number ends where a character is neither a digit nor the point.
-/

namespace DeskCalc

/-! ## Numbers -/

inductive Sign where
  | plus
  | minus
  deriving DecidableEq, Repr

namespace Sign

def char : Sign → Char
  | .plus => '+'
  | .minus => '-'

def factor : Sign → Double
  | .plus => Double.ofInt 1
  | .minus => Double.ofInt (-1)

end Sign

/-- A character of a number, its sign apart. -/
def isNumeric (c : Char) : Bool := c.isDigit || c == '.'

/-- A number as it is written: an optional sign, and digits with at most one point. -/
@[ext]
structure Numeral where
  sign : Option Sign
  run : List Char
  run_ne_nil : run ≠ []
  isNumeric_of_mem : ∀ c ∈ run, isNumeric c = true
  count_point_le : run.count '.' ≤ 1

/-- The decimal that a run of digits and at most one point stands for. -/
def decimalOf (run : List Char) : Decimal :=
  let whole := run.takeWhile (· != '.')
  let places := (run.dropWhile (· != '.')).tail
  ⟨Nat.ofDigitChars 10 (whole ++ places) 0, -(places.length : Int)⟩

namespace Numeral

def signChars (n : Numeral) : List Char := (n.sign.map Sign.char).toList

def text (n : Numeral) : List Char := n.signChars ++ n.run

/-- The run of a number, with a zero in front of a leading point. -/
def paddedRun (n : Numeral) : List Char :=
  if n.run.head? = some '.' then '0' :: n.run else n.run

/-- The double nearest to the number without its sign. -/
def magnitude (n : Numeral) : Double := Double.ofDecimal false (decimalOf n.paddedRun)

/-- The value of a number: its magnitude times the factor of its sign. -/
def value (n : Numeral) : Double :=
  n.magnitude.mul (n.sign.elim (Double.ofInt 1) Sign.factor)

end Numeral

/-! ## Derivations -/

abbrev Blanks := {run : List Char // ∀ c ∈ run, isBlank c = true}

def noBlanks : Blanks := ⟨[], by simp⟩

/-- A number and the blanks around it: `W num W`. -/
@[ext]
structure Slot where
  before : Blanks
  numeral : Numeral
  after : Blanks

def Slot.text (s : Slot) : List Char := s.before ++ (s.numeral.text ++ s.after)

def Slot.bare (n : Numeral) : Slot := ⟨noBlanks, n, noBlanks⟩

theorem Slot.text_bare (n : Numeral) : (bare n).text = n.text := List.append_nil _

/-- A derivation of an expression: `W num W (op W num W)*`. -/
@[ext]
structure Layout where
  first : Slot
  rest : List (Operator × Slot)

namespace Layout

def restText (rest : List (Operator × Slot)) : List Char :=
  rest.flatMap fun (op, slot) => op.char :: slot.text

def restTokens (rest : List (Operator × Slot)) : List Token :=
  rest.flatMap fun (op, slot) => [.ofOperator op, .number slot.numeral.value]

def text (l : Layout) : List Char := l.first.text ++ restText l.rest

/-- The numbers and operators of a derivation, in order. -/
def tokens (l : Layout) : List Token := .number l.first.numeral.value :: restTokens l.rest

/-- A derivation without its blanks. -/
def content (l : Layout) : Numeral × List (Operator × Numeral) :=
  (l.first.numeral, l.rest.map fun (op, slot) => (op, slot.numeral))

theorem tokens_eq_of_content_eq {l l' : Layout} (h : l.content = l'.content) :
    l.tokens = l'.tokens := by
  have hrest (rest : List (Operator × Slot)) : restTokens rest =
      (rest.map fun (op, slot) => (op, slot.numeral)).flatMap
        fun (op, n) => [.ofOperator op, .number n.value] := by
    rw [List.flatMap_map]
    rfl
  obtain ⟨hfirst, hmap⟩ := Prod.mk.inj h
  unfold tokens
  rw [hfirst, hrest, hrest, hmap]

end Layout

/-! ## Classes of characters -/

theorem not_isBlank_of_isNumeric {c : Char} (h : isNumeric c = true) : isBlank c = false := by
  rcases Bool.or_eq_true _ _ ▸ h with hdigit | hpoint
  · have hrange : 48 ≤ c.toNat ∧ c.toNat ≤ 57 := Char.isDigit_iff_toNat.1 hdigit
    simp only [isBlank, blankRanges, List.any_cons, List.any_nil, Bool.or_false,
      Bool.or_eq_false_iff, Bool.and_eq_false_iff, decide_eq_false_iff_not]
    omega
  · rw [eq_of_beq hpoint]
    rfl

theorem not_isBlank_char (op : Operator) : isBlank op.char = false := by
  cases op <;> rfl

theorem not_isNumeric_char (op : Operator) : isNumeric op.char = false := by
  cases op <;> rfl

theorem Operator.char_injective {op op' : Operator} (h : op.char = op'.char) : op = op' := by
  rw [← Option.some_inj, ← op.ofChar?_char, h, op'.ofChar?_char]

theorem isOperator_of_isNumeric {c : Char} (h : isNumeric c = true) : isOperator c = false := by
  by_contra hc
  obtain ⟨op, rfl⟩ := (isOperator_iff c).1 (by simpa using hc)
  rw [not_isNumeric_char] at h
  cases h

theorem not_isNumeric_of_isBlank {c : Char} (h : isBlank c = true) : isNumeric c = false := by
  by_contra hc
  rw [not_isBlank_of_isNumeric (by simpa using hc)] at h
  cases h

/-- The part of a text up to the first character outside of a class is determined by the
text. -/
theorem append_inj_of_class {α : Type} (p : α → Bool) {a a' b b' : List α}
    (ha : ∀ c ∈ a, p c = true) (ha' : ∀ c ∈ a', p c = true)
    (hb : ∀ c ∈ b.head?, p c = false) (hb' : ∀ c ∈ b'.head?, p c = false)
    (h : a ++ b = a' ++ b') : a = a' ∧ b = b' := by
  have htake (a b : List α) (ha : ∀ c ∈ a, p c = true) (hb : ∀ c ∈ b.head?, p c = false) :
      (a ++ b).takeWhile p = a := by
    rw [List.takeWhile_append_of_pos ha]
    cases b with
    | nil => simp
    | cons c b => simp [hb c rfl]
  have haa' : a = a' := by rw [← htake a b ha hb, h, htake a' b' ha' hb']
  subst haa'
  exact ⟨rfl, List.append_cancel_left h⟩

/-! ## A text has at most one derivation -/

/-- The text is over or goes on with an operator. -/
def EndsNumber (text : List Char) : Prop := ∀ c ∈ text.head?, ∃ op : Operator, c = op.char

theorem EndsNumber.not_isBlank_head {text : List Char} (h : EndsNumber text) :
    ∀ c ∈ text.head?, isBlank c = false := by
  intro c hc
  obtain ⟨op, rfl⟩ := h c hc
  exact not_isBlank_char op

/-- Blanks before the end of the text or an operator do not go on with a number. -/
theorem EndsNumber.not_isNumeric_head {text : List Char} (h : EndsNumber text) (w : Blanks) :
    ∀ c ∈ (w.1 ++ text).head?, isNumeric c = false := by
  intro c hc
  obtain ⟨_ | ⟨d, w⟩, hw⟩ := w
  · obtain ⟨op, rfl⟩ := h c hc
    exact not_isNumeric_char op
  · cases hc
    exact not_isNumeric_of_isBlank (hw c List.mem_cons_self)

namespace Numeral

theorem not_isBlank_head (n : Numeral) (text : List Char) :
    ∀ c ∈ (n.text ++ text).head?, isBlank c = false := by
  obtain ⟨sign, run, hne, hrun, hcount⟩ := n
  intro c hc
  cases sign with
  | none =>
      cases run with
      | nil => exact absurd rfl hne
      | cons d run =>
          cases hc
          exact not_isBlank_of_isNumeric (hrun c List.mem_cons_self)
  | some sign =>
      cases hc
      cases sign <;> rfl

theorem signChars_injective {n n' : Numeral} (h : n.signChars = n'.signChars) :
    n.sign = n'.sign := by
  unfold signChars at h
  cases hs : n.sign with
  | none => cases hs' : n'.sign with
    | none => rfl
    | some sign => simp [hs, hs'] at h
  | some sign => cases hs' : n'.sign with
    | none => simp [hs, hs'] at h
    | some sign' =>
        rw [hs, hs'] at h
        cases sign <;> cases sign' <;> first | rfl | cases h

theorem text_append_inj {n n' : Numeral} {text text' : List Char}
    (ht : ∀ c ∈ text.head?, isNumeric c = false) (ht' : ∀ c ∈ text'.head?, isNumeric c = false)
    (h : n.text ++ text = n'.text ++ text') : n = n' ∧ text = text' := by
  have hsign (n : Numeral) : ∀ c ∈ n.signChars, (!isNumeric c) = true := by
    intro c hc
    unfold signChars at hc
    cases hs : n.sign with
    | none => simp [hs] at hc
    | some sign =>
        simp only [hs, Option.map_some, Option.toList_some, List.mem_singleton] at hc
        subst hc
        cases sign <;> rfl
  have hhead (n : Numeral) (text : List Char) :
      ∀ c ∈ (n.run ++ text).head?, (!isNumeric c) = false := by
    intro c hc
    cases hrun : n.run with
    | nil => exact absurd hrun n.run_ne_nil
    | cons d run =>
        rw [hrun] at hc
        cases hc
        rw [n.isNumeric_of_mem c (by simp [hrun])]
        rfl
  unfold Numeral.text at h
  rw [List.append_assoc, List.append_assoc] at h
  -- the sign is over at the first digit or point, and the run where these end
  obtain ⟨hs, h⟩ := append_inj_of_class (fun c => !isNumeric c) (hsign n) (hsign n')
    (hhead n text) (hhead n' text') h
  obtain ⟨hr, h⟩ := append_inj_of_class isNumeric n.isNumeric_of_mem n'.isNumeric_of_mem ht ht' h
  exact ⟨Numeral.ext (signChars_injective hs) hr, h⟩

end Numeral

theorem Slot.text_append_inj {s s' : Slot} {text text' : List Char} (ht : EndsNumber text)
    (ht' : EndsNumber text') (h : s.text ++ text = s'.text ++ text') :
    s = s' ∧ text = text' := by
  unfold Slot.text at h
  simp only [List.append_assoc] at h
  obtain ⟨hbefore, h⟩ := append_inj_of_class isBlank s.before.2 s'.before.2
    (s.numeral.not_isBlank_head _) (s'.numeral.not_isBlank_head _) h
  obtain ⟨hnumeral, h⟩ := Numeral.text_append_inj (ht.not_isNumeric_head s.after)
    (ht'.not_isNumeric_head s'.after) h
  obtain ⟨hafter, h⟩ := append_inj_of_class isBlank s.after.2 s'.after.2 ht.not_isBlank_head
    ht'.not_isBlank_head h
  exact ⟨Slot.ext (Subtype.ext hbefore) hnumeral (Subtype.ext hafter), h⟩

namespace Layout

@[simp] theorem restText_cons (op : Operator) (slot : Slot) (rest : List (Operator × Slot)) :
    restText ((op, slot) :: rest) = op.char :: (slot.text ++ restText rest) := by
  simp [restText]

@[simp] theorem restTokens_cons (op : Operator) (slot : Slot) (rest : List (Operator × Slot)) :
    restTokens ((op, slot) :: rest) =
      .ofOperator op :: .number slot.numeral.value :: restTokens rest := by
  simp [restTokens]

theorem endsNumber_restText (rest : List (Operator × Slot)) : EndsNumber (restText rest) := by
  intro c hc
  cases rest with
  | nil => cases hc
  | cons link rest =>
      obtain ⟨op, slot⟩ := link
      rw [restText_cons] at hc
      cases hc
      exact ⟨op, rfl⟩

theorem restText_injective {rest rest' : List (Operator × Slot)}
    (h : restText rest = restText rest') : rest = rest' := by
  induction rest generalizing rest' with
  | nil =>
      cases rest' with
      | nil => rfl
      | cons link rest' => simp [restText] at h
  | cons link rest ih =>
      obtain ⟨op, slot⟩ := link
      cases rest' with
      | nil => simp [restText] at h
      | cons link' rest' =>
          obtain ⟨op', slot'⟩ := link'
          rw [restText_cons, restText_cons] at h
          obtain ⟨hop, h⟩ := List.cons.inj h
          obtain ⟨hslot, h⟩ := Slot.text_append_inj (endsNumber_restText rest)
            (endsNumber_restText rest') h
          rw [Operator.char_injective hop, hslot, ih h]

theorem text_injective {l l' : Layout} (h : l.text = l'.text) : l = l' := by
  obtain ⟨hfirst, hrest⟩ := Slot.text_append_inj (endsNumber_restText l.rest)
    (endsNumber_restText l'.rest) h
  exact Layout.ext hfirst (restText_injective hrest)

end Layout

end DeskCalc
