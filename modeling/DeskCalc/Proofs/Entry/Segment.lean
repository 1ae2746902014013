import DeskCalc.Proofs.Entry.Typing
import DeskCalc.Proofs.Expression.Scanning

set_option autoImplicit false

/-! # The number being typed

The entry looks back from the end of its text for the number that is being typed, and the scanner
reads the text from the beginning. Each has its own rule for which signs belong to a number. In a
text without blanks they find the same last number: it stands at the beginning or after an operator
(`Lead`), where the entry takes a minus for a sign as the scanner does, and a plus, which the entry
takes for an operator, does not change the value (`Numeral.value_dropPlus`).
-/

namespace DeskCalc

/-! ## The last number of an expression -/

/-- What stands before the last number of an expression and the blanks around it: nothing, or an
expression and an operator. The tokens of it come with it. -/
inductive Lead : List Char → List Token → Prop where
  | start : Lead [] []
  | operator (l : Layout) (op : Operator) :
      Lead (l.text ++ [op.char]) (l.tokens ++ [.ofOperator op])

/-- Any number may come last. -/
theorem Lead.tokenize_append {front : List Char} {before : List Token} (h : Lead front before)
    (s : Slot) : tokenize (front ++ s.text) = .ok (before ++ [.number s.numeral.value]) := by
  cases h with
  | start =>
      refine tokenize_eq_ok_iff.2 ⟨⟨s, []⟩, ?_, rfl⟩
      simp [Layout.text, Layout.restText]
  | operator l op =>
      refine tokenize_eq_ok_iff.2 ⟨⟨l.first, l.rest ++ [(op, s)]⟩, ?_, ?_⟩
      · simp [Layout.text, Layout.restText]
      · simp [Layout.tokens, Layout.restTokens]

theorem Layout.exists_lead (l : Layout) :
    ∃ (front : List Char) (before : List Token) (s : Slot),
      Lead front before ∧ l.text = front ++ s.text := by
  obtain ⟨first, rest⟩ := l
  rcases List.eq_nil_or_concat rest with rfl | ⟨links, ⟨op, s⟩, rfl⟩
  · refine ⟨[], [], first, .start, ?_⟩
    simp [Layout.text, Layout.restText]
  · refine ⟨_, _, s, .operator ⟨first, links⟩ op, ?_⟩
    simp [Layout.text, Layout.restText]

/-! ## Texts without blanks -/

theorem Slot.eq_bare {s : Slot} (h : ∀ c ∈ s.text, isBlank c = false) : s = .bare s.numeral := by
  have hnone (w : Blanks) (hw : ∀ c ∈ w.1, c ∈ s.text) : w = noBlanks := by
    refine Subtype.ext (List.eq_nil_iff_forall_not_mem.2 fun c hc => ?_)
    have hblank := w.2 c hc
    rw [h c (hw c hc)] at hblank
    cases hblank
  refine Slot.ext (hnone s.before ?_) rfl (hnone s.after ?_)
  · intro c hc
    simp [Slot.text, hc]
  · intro c hc
    simp [Slot.text, hc]

theorem Numeral.exists_concat (n : Numeral) :
    ∃ front c, n.text = front ++ [c] ∧ isNumeric c = true := by
  rcases List.eq_nil_or_concat n.run with hnil | ⟨front, c, hrun⟩
  · exact absurd hnil n.run_ne_nil
  · rw [List.concat_eq_append] at hrun
    refine ⟨n.signChars ++ front, c, ?_, n.isNumeric_of_mem c (by simp [hrun])⟩
    rw [Numeral.text, hrun, List.append_assoc]

/-- Without blanks, an expression ends in a number. -/
theorem Layout.exists_lead_numeral {l : Layout} (h : ∀ c ∈ l.text, isBlank c = false) :
    ∃ (front : List Char) (before : List Token) (n : Numeral),
      Lead front before ∧ l.text = front ++ n.text := by
  obtain ⟨front, before, s, hlead, htext⟩ := l.exists_lead
  have hbare : s = .bare s.numeral := Slot.eq_bare fun c hc => h c (by simp [htext, hc])
  refine ⟨front, before, s.numeral, hlead, ?_⟩
  rw [htext, hbare, Slot.text_bare]
  rfl

theorem Lead.tokenize_numeral {front : List Char} {before : List Token} (h : Lead front before)
    (n : Numeral) : tokenize (front ++ n.text) = .ok (before ++ [.number n.value]) := by
  have hbare := h.tokenize_append (.bare n)
  rwa [Slot.text_bare] at hbare

/-! ## Numbers of the same value -/

namespace Numeral

/-- The number without a plus in front of it. -/
def dropPlus (n : Numeral) : Numeral := { n with sign := n.sign.filter (· = .minus) }

theorem value_dropPlus (n : Numeral) : n.dropPlus.value = n.value := by
  have hnegative : n.dropPlus.negative = n.negative := by
    obtain ⟨_ | _ | _, run, _, _, _⟩ := n <;> rfl
  rw [value_eq, value_eq, hnegative]
  rfl

/-- The number with a point at its end. -/
def appendPoint (n : Numeral) (h : '.' ∉ n.run) : Numeral where
  sign := n.sign
  run := n.run ++ ['.']
  run_ne_nil := by simp
  isNumeric_of_mem := by
    intro c hc
    rcases List.mem_append.1 hc with hc | hc
    · exact n.isNumeric_of_mem c hc
    · rw [List.mem_singleton.1 hc]
      rfl
  count_point_le := by simp [List.count_eq_zero.2 h]

/-- A point at the end of a whole number does not change it. -/
theorem value_appendPoint (n : Numeral) (h : '.' ∉ n.run) : (n.appendPoint h).value = n.value := by
  have hdigits : ∀ c ∈ n.run, c.isDigit = true := by
    intro c hc
    have hne : c ≠ '.' := fun heq => h (heq ▸ hc)
    simpa [isNumeric, hne] using n.isNumeric_of_mem c hc
  have hdecimal : decimalOf (n.run ++ ['.']) = decimalOf n.run := by
    rw [decimalOf_point hdigits, decimalOf_digits hdigits]
    simp
  rw [value_eq, value_eq]
  exact congrArg (Double.ofDecimal n.negative) hdecimal

end Numeral

namespace Entry

/-! ## Looking back -/

/-- The entry looks back over everything that is no operator. -/
theorem takeSegment_append {run : List Char} (h : ∀ c ∈ run, isOperator c = false)
    (before : List Char) : takeSegment (run ++ before) = run ++ takeSegment before := by
  induction run with
  | nil => rfl
  | cons c run ih =>
      obtain ⟨hc, hrun⟩ := List.forall_mem_cons.1 h
      rw [List.cons_append, takeSegment, if_neg (by simp [hc]), ih hrun, List.cons_append]

section Lead

variable {front : List Char} {before : List Token}

/-- Before the last number a minus is a sign. -/
theorem standsAsSign_lead (h : Lead front before) : standsAsSign front.reverse = true := by
  cases h with
  | start => rfl
  | operator l op => rw [standsAsSign_concat, isOperator_char]

/-- The entry looks back no further than to the operator before the last number. -/
theorem takeSegment_lead (h : Lead front before) (hblank : ∀ c ∈ front, isBlank c = false) :
    takeSegment front.reverse = [] := by
  cases h with
  | start => rfl
  | operator l op =>
      have hleft : ∀ c ∈ l.text, isBlank c = false := fun c hc => hblank c (by simp [hc])
      obtain ⟨left, _, n, -, htext⟩ := Layout.exists_lead_numeral hleft
      obtain ⟨digits, c, hn, hc⟩ := n.exists_concat
      -- a number stands before the operator, so that it is binary even if it is a minus
      have hbinary : standsAsSign l.text.reverse = false := by
        rw [htext, hn, ← List.append_assoc, standsAsSign_concat, isOperator_of_isNumeric hc]
      rw [List.reverse_append, List.reverse_singleton, List.singleton_append, takeSegment,
        if_pos (by simp [isOperator_char, hbinary])]

/-- The segment is the last number, without its plus. -/
theorem segment_append_numeral (h : Lead front before) (hblank : ∀ c ∈ front, isBlank c = false)
    (n : Numeral) : segment (front ++ n.text) = n.dropPlus.text := by
  have hrun : ∀ c ∈ n.run.reverse, isOperator c = false := fun c hc =>
    isOperator_of_isNumeric (n.isNumeric_of_mem c (List.mem_reverse.1 hc))
  have hsign : takeSegment (n.signChars.reverse ++ front.reverse) =
      n.dropPlus.signChars.reverse := by
    obtain ⟨sign, run, _, _, _⟩ := n
    cases sign with
    | none => exact takeSegment_lead h hblank
    | some sign =>
        cases sign with
        | plus => rfl
        | minus =>
            show takeSegment ('-' :: front.reverse) = ['-']
            rw [takeSegment, standsAsSign_lead h, takeSegment_lead h hblank]
            rfl
  calc segment (front ++ n.text)
      = (takeSegment (n.run.reverse ++ (n.signChars.reverse ++ front.reverse))).reverse := by
        simp [segment, Numeral.text]
    _ = (n.run.reverse ++ n.dropPlus.signChars.reverse).reverse := by
        rw [takeSegment_append hrun, hsign]
    _ = n.dropPlus.text := by
        rw [List.reverse_append, List.reverse_reverse, List.reverse_reverse]
        rfl

/-- A point is added to a number that has none. -/
theorem editText_point_append_numeral (h : Lead front before)
    (hblank : ∀ c ∈ front, isBlank c = false) (n : Numeral) (limit : Int) :
    editText (front ++ n.text) .point limit = front ++ n.text ∨
      ∃ hpoint : '.' ∉ n.run,
        editText (front ++ n.text) .point limit = front ++ (n.appendPoint hpoint).text := by
  obtain ⟨digits, c, hn, hc⟩ := n.exists_concat
  have hnumber : standsAsSign (front ++ n.text).reverse = false := by
    rw [hn, ← List.append_assoc, standsAsSign_concat, isOperator_of_isNumeric hc]
  show (typePoint ⟨front ++ n.text, limit⟩).text = _ ∨ ∃ _, (typePoint ⟨_, limit⟩).text = _
  rw [typePoint_eq, hnumber, if_neg Bool.false_ne_true]
  by_cases hsegment : '.' ∈ segment (front ++ n.text)
  · left
    rw [if_pos hsegment]
  · have hpoint : '.' ∉ n.run := by
      intro hmem
      rw [segment_append_numeral h hblank] at hsegment
      exact hsegment (List.mem_append_right _ hmem)
    rw [if_neg hsegment, append_text]
    split
    · right
      refine ⟨hpoint, ?_⟩
      simp [Numeral.text, Numeral.appendPoint, Numeral.signChars]
    · left
      rfl

end Lead

/-- **The number being typed.** Of a text without blanks that has tokens, the segment has one
token, the last one of the text. So a point, if it is added to the text at all, is the first one of
its number, and the text has the same tokens as before. -/
theorem tokenize_segment {text : List Char} {tokens : List Token}
    (hblank : ∀ c ∈ text, isBlank c = false) (h : tokenize text = .ok tokens) :
    (∃ token, tokenize (segment text) = .ok [token] ∧ tokens.getLast? = some token) ∧
      ∀ limit : Int, tokenize (editText text .point limit) = .ok tokens := by
  obtain ⟨l, rfl, -⟩ := tokenize_eq_ok_iff.1 h
  obtain ⟨front, before, n, hlead, htext⟩ := Layout.exists_lead_numeral hblank
  rw [htext] at h hblank ⊢
  have hfront : ∀ c ∈ front, isBlank c = false := fun c hc => hblank c (List.mem_append_left _ hc)
  rw [hlead.tokenize_numeral n] at h
  obtain rfl : _ = tokens := Except.ok.inj h
  refine ⟨⟨.number n.value, ?_, List.getLast?_concat⟩, fun limit => ?_⟩
  · rw [segment_append_numeral hlead hfront, ← n.value_dropPlus]
    exact Lead.start.tokenize_numeral n.dropPlus
  · rcases editText_point_append_numeral hlead hfront n limit with hsame | ⟨hpoint, hadded⟩
    · rw [hsame, hlead.tokenize_numeral]
    · rw [hadded, hlead.tokenize_numeral, n.value_appendPoint hpoint]

/-- The second minus of `2--5` is a sign, and the plus of `2-+5` does not count. -/
theorem tokenize_segment_signs :
    (∃ tokens token, tokenize ['2', '-', '-', '5'] = .ok tokens ∧
      tokenize ['-', '5'] = .ok [token] ∧ tokens.getLast? = some token ∧
      tokenize ['2', '-', '-', '5', '.'] = .ok tokens) ∧
    ∃ tokens token, tokenize ['2', '-', '+', '5'] = .ok tokens ∧
      tokenize ['5'] = .ok [token] ∧ tokens.getLast? = some token := by
  have hnone {run : List Char} (h : run.all (fun c => !isBlank c) = true) :
      ∀ c ∈ run, isBlank c = false := by
    simpa using h
  constructor
  · have hblank : ∀ c ∈ ['2', '-', '-', '5'], isBlank c = false := hnone rfl
    obtain ⟨⟨token, hsegment, hlast⟩, hpoint⟩ := tokenize_segment hblank rfl
    exact ⟨_, token, rfl, hsegment, hlast, hpoint 5⟩
  · have hblank : ∀ c ∈ ['2', '-', '+', '5'], isBlank c = false := hnone rfl
    obtain ⟨⟨token, hsegment, hlast⟩, -⟩ := tokenize_segment hblank rfl
    exact ⟨_, token, rfl, hsegment, hlast⟩

end Entry

end DeskCalc
