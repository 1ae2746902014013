import DeskCalc.Proofs.Expression.Scanning

set_option autoImplicit false

/-! # The position of a fault

A fault of a text names a position. Up to there the text is the beginning of some expression, and
with the character at that position it is not (`position_exact`). A text that ends too early is
the beginning of an expression as a whole; its fault names the end, or the sign that stands there.

The first part holds because the scanner can always be led from the mode it is in to the end of
an expression (`Scan.exists_scans`), the second because a fault at a character does not depend on
what follows (`Scanner.run_append_of_step`).
-/

namespace DeskCalc

/-! ## Where a scanner stops -/

namespace Scanner

variable {State Item Fault : Type} {m : Scanner State Item Fault}

/-- A scanner that has read the characters before some character and then stops there, or has
read the whole text and stops at its end. -/
inductive StopsAt (m : Scanner State Item Fault) (pos : Nat) (state : State) (fault : Fault) :
    List Char → Prop
  | character (before : List Char) {c after items last} :
      m.advance pos state before = .ok (items, last) →
      m.step (pos + before.length) last c = .error fault →
      StopsAt m pos state fault (before ++ c :: after)
  | finish {text items last} :
      m.advance pos state text = .ok (items, last) →
      m.finish (pos + text.length) last = .error fault →
      StopsAt m pos state fault text

theorem advance_cons {pos : Nat} {state next last : State} {c : Char} {text : List Char}
    {items rest : List Item} (hstep : m.step pos state c = .ok (items, next))
    (h : m.advance (pos + 1) next text = .ok (rest, last)) :
    m.advance pos state (c :: text) = .ok (items ++ rest, last) := by
  rw [advance, hstep]
  dsimp only
  rw [h]

theorem StopsAt.cons {pos : Nat} {state next : State} {fault : Fault} {c : Char}
    {text : List Char} {items : List Item} (hstep : m.step pos state c = .ok (items, next))
    (h : StopsAt m (pos + 1) next fault text) : StopsAt m pos state fault (c :: text) := by
  have hpos (n : Nat) : pos + 1 + n = pos + (n + 1) := by omega
  cases h with
  | @character before d after rest last hadvance hfault =>
      rw [hpos, ← List.length_cons (a := c)] at hfault
      exact StopsAt.character (c :: before) (advance_cons hstep hadvance) hfault
  | @finish _ rest last hadvance hfault =>
      rw [hpos, ← List.length_cons (a := c)] at hfault
      exact StopsAt.finish (advance_cons hstep hadvance) hfault

/-- A fault of a text is met at one of its characters or at its end. -/
theorem stopsAt_of_run {pos : Nat} {state : State} {text : List Char} {fault : Fault}
    (h : m.run pos state text = .error fault) : StopsAt m pos state fault text := by
  induction text generalizing pos state with
  | nil => exact StopsAt.finish rfl h
  | cons c text ih =>
      rw [run] at h
      cases hstep : m.step pos state c with
      | error fault' =>
          rw [hstep] at h
          obtain rfl := Except.error.inj h
          exact StopsAt.character [] rfl hstep
      | ok out =>
          obtain ⟨items, next⟩ := out
          rw [hstep] at h
          dsimp only at h
          cases hrun : m.run (pos + 1) next text with
          | error fault' =>
              rw [hrun] at h
              obtain rfl := Except.error.inj h
              exact StopsAt.cons hstep (ih hrun)
          | ok rest =>
              rw [hrun] at h
              cases h

/-- What follows the character of a fault makes no difference. -/
theorem run_append_of_step {pos : Nat} {state last : State} {before : List Char} {c : Char}
    {items : List Item} {fault : Fault} (hadvance : m.advance pos state before = .ok (items, last))
    (hfault : m.step (pos + before.length) last c = .error fault) (after : List Char) :
    m.run pos state (before ++ c :: after) = .error fault := by
  rw [run_append, hadvance]
  dsimp only
  rw [run, hfault]

/-- A text is read if its first part is read and the rest is, from where that part ends. -/
theorem run_append_of_run {pos : Nat} {state last : State} {first second : List Char}
    {items rest : List Item} (hadvance : m.advance pos state first = .ok (items, last))
    (hrun : m.run (pos + first.length) last second = .ok rest) :
    m.run pos state (first ++ second) = .ok (items ++ rest) := by
  rw [run_append, hadvance]
  dsimp only
  rw [hrun]

end Scanner

/-! ## Beginnings of expressions -/

/-- The text is an expression. -/
def IsExpression (text : List Char) : Prop := ∃ tokens, tokenize text = .ok tokens

/-- Some expression begins with the text. -/
def BeginsExpression (text : List Char) : Prop := ∃ more, IsExpression (text ++ more)

theorem isExpression_of_run {text : List Char} {tokens : List Token}
    (h : Scan.scanner.run 0 .operand text = .ok tokens) : IsExpression text :=
  ⟨tokens, tokenize_eq_ok_iff.2 (Scan.reads_of_run h)⟩

theorem not_isExpression_of_run {text : List Char} {fault : Fault}
    (h : Scan.scanner.run 0 .operand text = .error fault) : ¬IsExpression text := by
  rintro ⟨tokens, htokens⟩
  unfold tokenize at htokens
  rw [h] at htokens
  cases htokens

namespace Scan

/-- From every mode some text leads to the end of an expression: a digit where a number is due,
and nothing otherwise. -/
theorem exists_scans (mode : Mode) : ∃ text tokens, Scans mode text tokens := by
  have hzero : isNumeric '0' = true := rfl
  have hend (l : Literal) : Scans (.literal l) [] [.number l.value] := fun pos => rfl
  cases mode with
  | operand => exact ⟨['0'], _, Scans.cons (operandStep_of_isNumeric hzero) (hend _)⟩
  | signed negative =>
      have hstep (pos : Nat) : step pos (.signed negative) '0' =
          .ok ([], .literal ((Literal.signed negative).push '0')) :=
        beginLiteral_of_isNumeric negative hzero (.signWithoutNumber pos)
      exact ⟨['0'], _, Scans.cons hstep (hend _)⟩
  | literal l => exact ⟨[], _, hend l⟩
  | operator => exact ⟨[], [], fun pos => rfl⟩

theorem beginsExpression_of_advance {text : List Char} {items : List Token} {mode : Mode}
    (h : scanner.advance 0 .operand text = .ok (items, mode)) : BeginsExpression text := by
  obtain ⟨more, tokens, hmore⟩ := exists_scans mode
  exact ⟨more, isExpression_of_run (Scanner.run_append_of_run h (hmore _))⟩

theorem not_beginsExpression_of_step {before : List Char} {c : Char} {items : List Token}
    {mode : Mode} {fault : Fault} (hadvance : scanner.advance 0 .operand before = .ok (items, mode))
    (hfault : step (0 + before.length) mode c = .error fault) :
    ¬BeginsExpression (before ++ [c]) := by
  rintro ⟨more, hmore⟩
  rw [List.append_assoc, List.singleton_append] at hmore
  exact not_isExpression_of_run (Scanner.run_append_of_step hadvance hfault more) hmore

/-- A text that ends too early lacks a number or, if it ends in a sign, the digits after it. -/
theorem fault_of_finish {text : List Char} {items : List Token} {mode : Mode} {fault : Fault}
    (hadvance : scanner.advance 0 .operand text = .ok (items, mode))
    (hfault : finish text.length mode = .error fault) :
    fault = .missingNumber text.length ∨
      ∃ p, fault = .danglingSign p ∧ p + 1 = text.length := by
  cases mode with
  | operand => exact Or.inl (Except.error.inj hfault).symm
  | signed negative =>
      -- the scanner has left the mode it begins in, so there is a character
      have hne : text ≠ [] := by
        rintro rfl
        cases hadvance
      have hlength := List.length_pos_iff.2 hne
      exact Or.inr ⟨text.length - 1, (Except.error.inj hfault).symm, by omega⟩
  | literal l => cases hfault
  | operator => cases hfault

end Scan

/-- **The position of a fault is exact.** A text that is no expression has a fault with a
position. Either the text ends too early, and some expression begins with it: a number is missing
at the end, or the digits after a sign that is the last character. Or the position is that of a
character: some expression begins with the text before it, and none with the text up to and
including it. -/
theorem position_exact (text : List Char) (fault : Fault) (h : tokenize text = .error fault) :
    ∃ p, fault.position = some p ∧
      ((fault.message = "Expression ends with operator." ∧ p = text.length ∨
          fault.message = "Dangling sign at end." ∧ p + 1 = text.length) ∧
          BeginsExpression text ∨
        p < text.length ∧ BeginsExpression (text.take p) ∧
          ¬BeginsExpression (text.take (p + 1))) := by
  have hstops := Scanner.stopsAt_of_run (run_of_tokenize h)
  cases hstops with
  | @character before c after items mode hadvance hfault =>
      have hposition := Scan.position_of_step hfault
      rw [Nat.zero_add] at hposition
      have htake : (before ++ c :: after).take before.length = before :=
        List.take_left' rfl
      have htake' : (before ++ c :: after).take (before.length + 1) = before ++ [c] := by
        rw [List.append_cons]
        exact List.take_left' (by simp)
      refine ⟨before.length, hposition, Or.inr ⟨by simp, ?_, ?_⟩⟩
      · rw [htake]
        exact Scan.beginsExpression_of_advance hadvance
      · rw [htake']
        exact Scan.not_beginsExpression_of_step hadvance hfault
  | @finish _ items mode hadvance hfault =>
      have hbegins := Scan.beginsExpression_of_advance hadvance
      rw [Nat.zero_add] at hfault
      rcases Scan.fault_of_finish hadvance hfault with rfl | ⟨p, rfl, hp⟩
      · exact ⟨text.length, rfl, Or.inl ⟨Or.inl ⟨rfl, rfl⟩, hbegins⟩⟩
      · exact ⟨p, rfl, Or.inl ⟨Or.inr ⟨rfl, hp⟩, hbegins⟩⟩

/-- In `2*-x` the letter is to blame: `2*-` is the beginning of an expression, but no expression
begins with `2*-x`. -/
theorem position_exact_letter :
    tokenize ['2', '*', '-', 'x'] = .error (.signWithoutNumber 3) ∧
      BeginsExpression ['2', '*', '-'] ∧ ¬BeginsExpression ['2', '*', '-', 'x'] := by
  have hfault : tokenize ['2', '*', '-', 'x'] = .error (.signWithoutNumber 3) := rfl
  obtain ⟨p, hp, hcases⟩ := position_exact ['2', '*', '-', 'x'] _ hfault
  obtain rfl : 3 = p := Option.some.inj hp
  rcases hcases with ⟨⟨hmessage, -⟩ | ⟨hmessage, -⟩, -⟩ | ⟨-, hbegins, hnot⟩
  · exact absurd hmessage (by decide)
  · exact absurd hmessage (by decide)
  · exact ⟨hfault, hbegins, hnot⟩

end DeskCalc
