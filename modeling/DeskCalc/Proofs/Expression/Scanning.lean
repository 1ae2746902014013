import DeskCalc.Proofs.Expression.Reading

set_option autoImplicit false

/-! # The scanner reads the grammar

The scanner accepts a text exactly when the text has a derivation, and puts out the tokens of
that derivation. For a scanner in the middle of a text, `Reads` says what the rest of the text
has to be in each mode. A character of an accepted text extends that by one character
(`reads_of_step`), so it holds of every accepted text; in the other direction, the scanner is
led through the parts of a derivation one after the other (`Scans`).
-/

namespace DeskCalc

namespace Scan

/-! ## What one character does -/

theorem begin?_eq_some {negative : Bool} {c : Char} {l : Literal}
    (h : Literal.begin? negative c = some l) :
    isNumeric c = true ∧ l = (Literal.signed negative).push c := by
  unfold Literal.begin? at h
  split at h
  · rename_i hdigit
    refine ⟨by simp [isNumeric, hdigit], ?_⟩
    rw [Literal.push_digit _ hdigit, Option.some_inj.1 h]
  · split at h
    · rename_i hpoint
      subst hpoint
      exact ⟨rfl, (Option.some_inj.1 h).symm⟩
    · cases h

theorem begin?_of_isNumeric (negative : Bool) {c : Char} (h : isNumeric c = true) :
    Literal.begin? negative c = some ((Literal.signed negative).push c) := by
  unfold Literal.begin?
  by_cases hdigit : c.isDigit = true
  · rw [if_pos hdigit, Literal.push_digit _ hdigit]
  · have hpoint : c = '.' := by simpa [isNumeric, hdigit] using h
    subst hpoint
    rfl

theorem beginLiteral_of_isNumeric (negative : Bool) {c : Char} (h : isNumeric c = true)
    (fault : Fault) :
    beginLiteral negative c fault = .ok ([], .literal ((Literal.signed negative).push c)) := by
  unfold beginLiteral
  rw [begin?_of_isNumeric negative h]

theorem operandStep_of_isNumeric {c : Char} (h : isNumeric c = true) (pos : Nat) :
    step pos .operand c = .ok ([], .literal ((Literal.signed false).push c)) := by
  have hne (op : Operator) : c ≠ op.char := by
    rintro rfl
    rw [not_isNumeric_char] at h
    cases h
  have hblank := not_isBlank_of_isNumeric h
  have hplus : c ≠ '+' := hne .plus
  have hminus : c ≠ '-' := hne .minus
  unfold step
  dsimp only
  rw [if_neg (by simp [hblank]), if_neg hplus, if_neg hminus]
  exact beginLiteral_of_isNumeric false h (.notANumber pos)

theorem literalStep_of_isNumeric {l : Literal} {c : Char} (h : isNumeric c = true)
    (hpoint : c = '.' → l.places = none) (pos : Nat) :
    step pos (.literal l) c = .ok ([], .literal (l.push c)) := by
  by_cases hc : c = '.'
  · subst hc
    simp [step, hpoint rfl, Literal.push_point]
  · have hdigit : c.isDigit = true := by simpa [isNumeric, hc] using h
    rw [Literal.push_digit l hdigit]
    exact if_pos hdigit

theorem beginLiteral_eq_ok {negative : Bool} {c : Char} {otherwise : Fault}
    {out : List Token × Mode} (h : beginLiteral negative c otherwise = .ok out) :
    isNumeric c = true ∧ out = ([], .literal ((Literal.signed negative).push c)) := by
  unfold beginLiteral at h
  split at h
  · rename_i l hl
    obtain ⟨hc, rfl⟩ := begin?_eq_some hl
    exact ⟨hc, (Except.ok.inj h).symm⟩
  · cases h

theorem operatorStep_eq_ok {pos : Nat} {c : Char} {out : List Token × Mode}
    (h : operatorStep pos c = .ok out) :
    (isBlank c = true ∧ out = ([], .operator)) ∨
      ∃ op : Operator, c = op.char ∧ out = ([.ofOperator op], .operand) := by
  unfold operatorStep at h
  split at h
  · rename_i hblank
    exact Or.inl ⟨hblank, (Except.ok.inj h).symm⟩
  · split at h
    · rename_i op hop
      exact Or.inr ⟨op, Operator.ofChar?_eq_some_iff.1 hop, (Except.ok.inj h).symm⟩
    · cases h

theorem operandStep_eq_ok {pos : Nat} {c : Char} {out : List Token × Mode}
    (h : step pos .operand c = .ok out) :
    (isBlank c = true ∧ out = ([], .operand)) ∨
      (∃ sign : Sign, c = sign.char ∧ out = ([], .signed (sign = .minus))) ∨
      isNumeric c = true ∧ out = ([], .literal ((Literal.signed false).push c)) := by
  simp only [step] at h
  split_ifs at h with hblank hplus hminus
  · exact Or.inl ⟨hblank, (Except.ok.inj h).symm⟩
  · exact Or.inr (Or.inl ⟨.plus, hplus, (Except.ok.inj h).symm⟩)
  · exact Or.inr (Or.inl ⟨.minus, hminus, (Except.ok.inj h).symm⟩)
  · exact Or.inr (Or.inr (beginLiteral_eq_ok h))

theorem literalStep_eq_ok {pos : Nat} {l : Literal} {c : Char} {out : List Token × Mode}
    (h : step pos (.literal l) c = .ok out) :
    (isNumeric c = true ∧ (c = '.' → l.places = none) ∧ out = ([], .literal (l.push c))) ∨
      ∃ items next, operatorStep pos c = .ok (items, next) ∧
        out = (.number l.value :: items, next) := by
  simp only [step] at h
  split_ifs at h with hdigit hpoint hplaces
  · refine Or.inl ⟨by simp [isNumeric, hdigit], ?_, ?_⟩
    · rintro rfl
      cases hdigit
    · rw [Literal.push_digit l hdigit, Except.ok.inj h]
  · subst hpoint
    exact Or.inl ⟨rfl, fun _ => by simpa using hplaces, (Except.ok.inj h).symm⟩
  · cases hstep : operatorStep pos c with
    | error fault =>
        rw [hstep] at h
        cases h
    | ok stepped =>
        rw [hstep] at h
        exact Or.inr ⟨stepped.1, stepped.2, rfl, (Except.ok.inj h).symm⟩

/-! ## Accepted texts have a derivation -/

open Layout in
/-- What a text has to be for the scanner to accept it in a mode, and the tokens it puts out. -/
def Reads : Mode → List Char → List Token → Prop
  | .operand, text, tokens => ∃ l : Layout, l.text = text ∧ l.tokens = tokens
  | .signed negative, text, tokens =>
      ∃ run : List Char, run ≠ [] ∧ (∀ c ∈ run, isNumeric c = true) ∧ run.count '.' ≤ 1 ∧
        ∃ (after : Blanks) (rest : List (Operator × Slot)),
          text = run ++ (after ++ restText rest) ∧
          tokens = .number ((Literal.signed negative).pushAll run).value :: restTokens rest
  | .literal l, text, tokens =>
      ∃ run : List Char, (∀ c ∈ run, isNumeric c = true) ∧
        l.points + run.count '.' ≤ 1 ∧
        ∃ (after : Blanks) (rest : List (Operator × Slot)),
          text = run ++ (after ++ restText rest) ∧
          tokens = .number (l.pushAll run).value :: restTokens rest
  | .operator, text, tokens =>
      ∃ (after : Blanks) (rest : List (Operator × Slot)),
        text = after ++ restText rest ∧ tokens = restTokens rest

/-- One more blank in front. -/
def consBlank (c : Char) (hc : isBlank c = true) (w : Blanks) : Blanks :=
  ⟨c :: w, by simpa using ⟨hc, w.2⟩⟩

theorem reads_of_finish {pos : Nat} {mode : Mode} {tokens : List Token}
    (h : finish pos mode = .ok tokens) : Reads mode [] tokens := by
  cases mode with
  | operand => cases h
  | signed negative => cases h
  | literal l =>
      cases h
      exact ⟨[], List.forall_mem_nil _, Literal.points_le_one l, noBlanks, [], rfl, rfl⟩
  | operator =>
      cases h
      exact ⟨noBlanks, [], rfl, rfl⟩

theorem reads_literal_cons {l : Literal} {c : Char} {text : List Char} {tokens : List Token}
    (hc : isNumeric c = true) (hpoint : c = '.' → l.places = none)
    (h : Reads (.literal (l.push c)) text tokens) :
    ∃ run : List Char, (∀ d ∈ c :: run, isNumeric d = true) ∧
      l.points + (c :: run).count '.' ≤ 1 ∧
      ∃ (after : Blanks) (rest : List (Operator × Slot)),
        c :: text = (c :: run) ++ (after ++ Layout.restText rest) ∧
        tokens = .number (l.pushAll (c :: run)).value :: Layout.restTokens rest := by
  obtain ⟨run, hrun, hcount, after, rest, rfl, rfl⟩ := h
  rw [Literal.points_push hc hpoint] at hcount
  exact ⟨run, List.forall_mem_cons.2 ⟨hc, hrun⟩, hcount, after, rest, rfl, rfl⟩

theorem reads_operator_cons {pos : Nat} {c : Char} {text : List Char} {items tokens : List Token}
    {next : Mode} (hstep : operatorStep pos c = .ok (items, next))
    (h : Reads next text tokens) : Reads .operator (c :: text) (items ++ tokens) := by
  rcases operatorStep_eq_ok hstep with ⟨hblank, hout⟩ | ⟨op, rfl, hout⟩
  · cases hout
    obtain ⟨after, rest, rfl, rfl⟩ := h
    exact ⟨consBlank c hblank after, rest, rfl, rfl⟩
  · cases hout
    obtain ⟨⟨first, rest⟩, rfl, rfl⟩ := h
    exact ⟨noBlanks, (op, first) :: rest, (Layout.restText_cons op first rest).symm,
      (Layout.restTokens_cons op first rest).symm⟩

/-- The rest of a derivation, with a number and perhaps its sign in front of it. -/
theorem reads_operand_of_run (sign : Option Sign) {run : List Char} (hne : run ≠ [])
    (hrun : ∀ c ∈ run, isNumeric c = true) (hcount : run.count '.' ≤ 1) (after : Blanks)
    (rest : List (Operator × Slot)) :
    Reads .operand ((sign.map Sign.char).toList ++ (run ++ (after ++ Layout.restText rest)))
      (.number ((Literal.signed (sign = some .minus)).pushAll run).value ::
        Layout.restTokens rest) := by
  let n : Numeral := ⟨sign, run, hne, hrun, hcount⟩
  refine ⟨⟨⟨noBlanks, n, after⟩, rest⟩, ?_, ?_⟩
  · simp [Layout.text, Slot.text, Numeral.text, Numeral.signChars, n, noBlanks]
  · exact congrArg (fun x => Token.number x :: Layout.restTokens rest) n.value_read.symm

theorem reads_of_step {pos : Nat} {mode next : Mode} {c : Char} {text : List Char}
    {items tokens : List Token} (hstep : step pos mode c = .ok (items, next))
    (h : Reads next text tokens) : Reads mode (c :: text) (items ++ tokens) := by
  cases mode with
  | operand =>
      rcases operandStep_eq_ok hstep with ⟨hblank, hout⟩ | ⟨sign, rfl, hout⟩ | ⟨hc, hout⟩
      · cases hout
        obtain ⟨⟨⟨before, numeral, after⟩, rest⟩, rfl, rfl⟩ := h
        exact ⟨⟨⟨consBlank c hblank before, numeral, after⟩, rest⟩, rfl, rfl⟩
      · cases hout
        obtain ⟨run, hne, hrun, hcount, after, rest, rfl, rfl⟩ := h
        have hread := reads_operand_of_run (some sign) hne hrun hcount after rest
        simpa using hread
      · cases hout
        obtain ⟨run, hrun, hcount, after, rest, htext, rfl⟩ :=
          reads_literal_cons hc (fun _ => rfl) h
        rw [Literal.points_signed, Nat.zero_add] at hcount
        have hread := reads_operand_of_run none (List.cons_ne_nil c run) hrun hcount after rest
        rw [htext]
        simpa using hread
  | signed negative =>
      obtain ⟨hc, hout⟩ := beginLiteral_eq_ok hstep
      cases hout
      obtain ⟨run, hrun, hcount, after, rest, htext, rfl⟩ :=
        reads_literal_cons hc (fun _ => rfl) h
      rw [Literal.points_signed, Nat.zero_add] at hcount
      exact ⟨c :: run, List.cons_ne_nil c run, hrun, hcount, after, rest, htext, rfl⟩
  | literal l =>
      rcases literalStep_eq_ok hstep with ⟨hc, hpoint, hout⟩ | ⟨items', next', hop, hout⟩
      · cases hout
        obtain ⟨run, hread⟩ := reads_literal_cons hc hpoint h
        exact ⟨c :: run, hread⟩
      · cases hout
        obtain ⟨after, rest, htext, htokens⟩ := reads_operator_cons hop h
        refine ⟨[], List.forall_mem_nil _, Literal.points_le_one l, after, rest, htext, ?_⟩
        rw [List.cons_append, htokens]
        rfl
  | operator => exact reads_operator_cons hstep h

/-- An accepted text is what the mode requires. -/
theorem reads_of_run {pos : Nat} {mode : Mode} {text : List Char} {tokens : List Token}
    (h : scanner.run pos mode text = .ok tokens) : Reads mode text tokens := by
  induction text generalizing pos mode tokens with
  | nil => exact reads_of_finish h
  | cons c text ih =>
      obtain ⟨items, next, rest, hstep, hrun, rfl⟩ := Scanner.run_cons_eq_ok.1 h
      exact reads_of_step hstep (ih hrun)

/-! ## Texts with a derivation are accepted -/

/-- In a mode, at any position, the scanner accepts a text and puts out the tokens. -/
def Scans (mode : Mode) (text : List Char) (tokens : List Token) : Prop :=
  ∀ pos, scanner.run pos mode text = .ok tokens

theorem Scans.cons {mode next : Mode} {c : Char} {text : List Char} {items tokens : List Token}
    (hstep : ∀ pos, step pos mode c = .ok (items, next)) (h : Scans next text tokens) :
    Scans mode (c :: text) (items ++ tokens) :=
  fun pos => Scanner.run_cons_eq_ok.2 ⟨items, next, tokens, hstep pos, h (pos + 1), rfl⟩

/-- Blanks are passed over where one blank is. -/
theorem Scans.blanks {mode : Mode}
    (hmode : ∀ c, isBlank c = true → ∀ pos, step pos mode c = .ok ([], mode))
    {w text : List Char} {tokens : List Token} (hw : ∀ c ∈ w, isBlank c = true)
    (h : Scans mode text tokens) : Scans mode (w ++ text) tokens := by
  induction w with
  | nil => exact h
  | cons c w ih =>
      have hrest := ih fun d hd => hw d (List.mem_cons_of_mem c hd)
      exact Scans.cons (hmode c (hw c List.mem_cons_self)) hrest

theorem Scans.operator_char (op : Operator) {text : List Char} {tokens : List Token}
    (h : Scans .operand text tokens) :
    Scans .operator (op.char :: text) (.ofOperator op :: tokens) := by
  have hstep (pos : Nat) : step pos .operator op.char = .ok ([.ofOperator op], .operand) := by
    cases op <;> rfl
  exact Scans.cons hstep h

/-- A number is over where no character of a number follows. -/
theorem Scans.literal_end (l : Literal) {text : List Char} {tokens : List Token}
    (hhead : ∀ c ∈ text.head?, isNumeric c = false) (h : Scans .operator text tokens) :
    Scans (.literal l) text (.number l.value :: tokens) := by
  intro pos
  cases text with
  | nil =>
      have htokens : tokens = [] := (Except.ok.inj (h pos)).symm
      rw [htokens]
      rfl
  | cons c text =>
      obtain ⟨hdigit, hpoint⟩ := Bool.or_eq_false_iff.1 (hhead c rfl)
      obtain ⟨items, next, rest, hop, hrest, rfl⟩ := Scanner.run_cons_eq_ok.1 (h pos)
      have hop' : operatorStep pos c = .ok (items, next) := hop
      have hstep : step pos (.literal l) c = .ok (.number l.value :: items, next) := by
        unfold step
        dsimp only
        rw [if_neg (by simp [hdigit]), if_neg (by simpa using hpoint), hop']
      exact Scanner.run_cons_eq_ok.2 ⟨_, next, rest, hstep, hrest, rfl⟩

/-- The characters of a number are read one after the other. -/
theorem Scans.literal_run {l : Literal} {run text : List Char} {tokens : List Token}
    (hrun : ∀ c ∈ run, isNumeric c = true) (hcount : l.points + run.count '.' ≤ 1)
    (h : Scans (.literal (l.pushAll run)) text tokens) :
    Scans (.literal l) (run ++ text) tokens := by
  induction run generalizing l with
  | nil => exact h
  | cons c run ih =>
      obtain ⟨hc, hrest⟩ := List.forall_mem_cons.1 hrun
      have hpoint : c = '.' → l.places = none := by
        rintro rfl
        rw [List.count_cons_self] at hcount
        exact Literal.points_eq_zero_iff.1 (by omega)
      rw [← Literal.points_push hc hpoint] at hcount
      exact Scans.cons (literalStep_of_isNumeric hc hpoint) (ih hrest hcount h)

/-- The first character of a number takes the scanner from the sign into the number. -/
theorem Scans.begin_run {mode : Mode} {negative : Bool}
    (hmode : ∀ c, isNumeric c = true → ∀ pos,
      step pos mode c = .ok ([], .literal ((Literal.signed negative).push c)))
    {run text : List Char} {tokens : List Token} (hne : run ≠ [])
    (hrun : ∀ c ∈ run, isNumeric c = true) (hcount : run.count '.' ≤ 1)
    (h : Scans (.literal ((Literal.signed negative).pushAll run)) text tokens) :
    Scans mode (run ++ text) tokens := by
  cases run with
  | nil => exact absurd rfl hne
  | cons c run =>
      obtain ⟨hc, hrest⟩ := List.forall_mem_cons.1 hrun
      have hpoint : c = '.' → (Literal.signed negative).places = none := fun _ => rfl
      rw [← Nat.zero_add (List.count _ _), ← Literal.points_signed negative,
        ← Literal.points_push hc hpoint] at hcount
      exact Scans.cons (hmode c hc) (Scans.literal_run hrest hcount h)

theorem Scans.numeral (n : Numeral) {text : List Char} {tokens : List Token}
    (hhead : ∀ c ∈ text.head?, isNumeric c = false) (h : Scans .operator text tokens) :
    Scans .operand (n.text ++ text) (.number n.value :: tokens) := by
  have hliteral := Scans.literal_end ((Literal.signed n.negative).pushAll n.run) hhead h
  rw [n.value_read] at hliteral
  have hbegin {mode : Mode} (hmode : ∀ c, isNumeric c = true → ∀ pos,
      step pos mode c = .ok ([], .literal ((Literal.signed n.negative).push c))) :
      Scans mode (n.run ++ text) (.number n.value :: tokens) :=
    Scans.begin_run hmode n.run_ne_nil n.isNumeric_of_mem n.count_point_le hliteral
  unfold Numeral.text Numeral.signChars
  rw [List.append_assoc]
  -- without a sign the run begins at once, and else the scanner is in a mode of its own
  cases hsign : n.sign with
  | none =>
      have hnegative : n.negative = false := by simp [Numeral.negative, hsign]
      refine hbegin fun c hc pos => ?_
      rw [hnegative]
      exact operandStep_of_isNumeric hc pos
  | some sign =>
      have hsigned : Scans (.signed n.negative) (n.run ++ text) (.number n.value :: tokens) :=
        hbegin fun c hc pos =>
          beginLiteral_of_isNumeric n.negative hc (.signWithoutNumber pos)
      have hstep (pos : Nat) : step pos .operand sign.char = .ok ([], .signed n.negative) := by
        unfold Numeral.negative
        rw [hsign]
        cases sign <;> rfl
      exact Scans.cons hstep hsigned

theorem Scans.slot (s : Slot) {text : List Char} {tokens : List Token} (hends : EndsNumber text)
    (h : Scans .operator text tokens) :
    Scans .operand (s.text ++ text) (.number s.numeral.value :: tokens) := by
  unfold Slot.text
  simp only [List.append_assoc]
  have hoperator (c : Char) (hc : isBlank c = true) (pos : Nat) :
      step pos .operator c = .ok ([], .operator) := if_pos hc
  have hoperand (c : Char) (hc : isBlank c = true) (pos : Nat) :
      step pos .operand c = .ok ([], .operand) := if_pos hc
  have hafter := Scans.blanks hoperator s.after.2 h
  exact Scans.blanks hoperand s.before.2
    (Scans.numeral s.numeral (hends.not_isNumeric_head s.after) hafter)

theorem Scans.restText (rest : List (Operator × Slot)) :
    Scans .operator (Layout.restText rest) (Layout.restTokens rest) := by
  induction rest with
  | nil => exact fun pos => rfl
  | cons link rest ih =>
      obtain ⟨op, slot⟩ := link
      rw [Layout.restText_cons, Layout.restTokens_cons]
      exact Scans.operator_char op (Scans.slot slot (Layout.endsNumber_restText rest) ih)

theorem Scans.layout (l : Layout) : Scans .operand l.text l.tokens :=
  Scans.slot l.first (Layout.endsNumber_restText l.rest) (Scans.restText l.rest)

/-! ## Faults -/

theorem eq_of_beginLiteral_error {negative : Bool} {c : Char} {otherwise fault : Fault}
    (h : beginLiteral negative c otherwise = .error fault) : fault = otherwise := by
  unfold beginLiteral at h
  split at h
  · cases h
  · exact (Except.error.inj h).symm

theorem position_of_operatorStep {pos : Nat} {c : Char} {fault : Fault}
    (h : operatorStep pos c = .error fault) : fault.position = some pos := by
  unfold operatorStep at h
  split_ifs at h
  split at h
  · cases h
  · cases h
    rfl

/-- A fault at a character names the position of that character. -/
theorem position_of_step {pos : Nat} {mode : Mode} {c : Char} {fault : Fault}
    (h : step pos mode c = .error fault) : fault.position = some pos := by
  cases mode with
  | operand =>
      simp only [step] at h
      split_ifs at h
      rw [eq_of_beginLiteral_error h]
      rfl
  | signed negative =>
      rw [eq_of_beginLiteral_error h]
      rfl
  | literal l =>
      simp only [step] at h
      split_ifs at h
      · cases h
        rfl
      · split at h
        · cases h
        · rename_i fault' hop
          cases h
          exact position_of_operatorStep hop
  | operator => exact position_of_operatorStep h

/-- A fault at the end of a text names a position that is not after the end. -/
theorem position_of_finish {pos : Nat} {mode : Mode} {fault : Fault}
    (h : finish pos mode = .error fault) : ∃ p, fault.position = some p ∧ p ≤ pos := by
  cases mode with
  | operand =>
      cases h
      exact ⟨pos, rfl, Nat.le_refl pos⟩
  | signed negative =>
      cases h
      exact ⟨pos - 1, rfl, Nat.sub_le pos 1⟩
  | literal l => cases h
  | operator => cases h

theorem position_of_run {pos : Nat} {mode : Mode} {text : List Char} {fault : Fault}
    (h : scanner.run pos mode text = .error fault) :
    ∃ p, fault.position = some p ∧ p ≤ pos + text.length := by
  induction text generalizing pos mode with
  | nil => exact position_of_finish h
  | cons c text ih =>
      rw [List.length_cons]
      rw [Scanner.run] at h
      split at h
      · rename_i fault' hstep
        cases h
        exact ⟨pos, position_of_step hstep, by omega⟩
      · split at h
        · rename_i fault' hrun
          cases h
          obtain ⟨p, hp, hle⟩ := ih hrun
          exact ⟨p, hp, by omega⟩
        · cases h

end Scan

/-! ## The tokens of a text -/

theorem takeTurns_restTokens (rest : List (Operator × Slot)) :
    takeTurns false (Layout.restTokens rest) = true := by
  induction rest with
  | nil => rfl
  | cons link rest ih =>
      obtain ⟨op, slot⟩ := link
      rw [Layout.restTokens_cons]
      exact ih

theorem isAlternating_tokens (l : Layout) : isAlternating l.tokens = true :=
  takeTurns_restTokens l.rest

/-- The tokens of a text are those of its derivation. -/
theorem tokenize_eq_ok_iff {text : List Char} {tokens : List Token} :
    tokenize text = .ok tokens ↔ ∃ l : Layout, l.text = text ∧ l.tokens = tokens := by
  constructor
  · intro h
    unfold tokenize at h
    split at h
    · cases h
    · rename_i items hrun
      split at h
      · cases h
        exact Scan.reads_of_run hrun
      · cases h
  · rintro ⟨l, rfl, rfl⟩
    unfold tokenize
    rw [Scan.Scans.layout l 0]
    exact if_pos (isAlternating_tokens l)

theorem tokenize_text (l : Layout) : tokenize l.text = .ok l.tokens :=
  tokenize_eq_ok_iff.2 ⟨l, rfl, rfl⟩

/-- The scanner puts out tokens that alternate, so all faults of a text are the scanner's. -/
theorem run_of_tokenize {text : List Char} {fault : Fault} (h : tokenize text = .error fault) :
    Scan.scanner.run 0 .operand text = .error fault := by
  unfold tokenize at h
  split at h
  · rename_i fault' hrun
    cases h
    exact hrun
  · rename_i tokens hrun
    obtain ⟨l, -, rfl⟩ := Scan.reads_of_run hrun
    rw [if_pos (isAlternating_tokens l)] at h
    cases h

theorem position_of_tokenize {text : List Char} {fault : Fault}
    (h : tokenize text = .error fault) :
    ∃ p, fault.position = some p ∧ p ≤ text.length := by
  obtain ⟨p, hp, hle⟩ := Scan.position_of_run (run_of_tokenize h)
  exact ⟨p, hp, by omega⟩

/-- Only a malformed text has a position at which something is wrong. -/
theorem Fault.kind_of_position {f : Fault} {p : Nat} (h : f.position = some p) :
    f.kind = .malformed := by
  cases f with
  | divisionByZero => cases h
  | outOfRange _ => cases h
  | _ => rfl

theorem kind_of_tokenize {text : List Char} {fault : Fault}
    (h : tokenize text = .error fault) : fault.kind = .malformed := by
  obtain ⟨p, hp, -⟩ := position_of_tokenize h
  exact Fault.kind_of_position hp

/-- **The tokens of an expression.** A text has tokens exactly when it has a derivation. The
derivation is then the only one, the tokens are its numbers and operators in order, and every
text with a derivation of the same content has the same tokens. The fault of any other text is
that it is malformed. -/
theorem tokenize_iff_derivation (text : List Char) :
    ((∃ tokens, tokenize text = .ok tokens) ↔ ∃ l : Layout, l.text = text) ∧
    (∀ l : Layout, l.text = text →
      tokenize text = .ok l.tokens ∧
      (∀ l' : Layout, l'.text = text → l' = l) ∧
      ∀ l' : Layout, l'.content = l.content → tokenize l'.text = tokenize text) ∧
    ∀ fault, tokenize text = .error fault → fault.kind = .malformed := by
  refine ⟨?_, ?_, fun fault h => kind_of_tokenize h⟩
  · constructor
    · rintro ⟨tokens, h⟩
      obtain ⟨l, hl, -⟩ := tokenize_eq_ok_iff.1 h
      exact ⟨l, hl⟩
    · rintro ⟨l, rfl⟩
      exact ⟨l.tokens, tokenize_text l⟩
  · rintro l rfl
    refine ⟨tokenize_text l, fun l' h => Layout.text_injective h, fun l' h => ?_⟩
    rw [tokenize_text, tokenize_text, Layout.tokens_eq_of_content_eq h]

/-- Blanks around the numbers of `1+-.5` change nothing, and the second point of `1..2` is a
fault. -/
theorem tokenize_iff_derivation_blanks :
    (∃ l : Layout, tokenize ['1', '+', '-', '.', '5'] = .ok l.tokens ∧
      (∀ l' : Layout, l'.text = ['1', '+', '-', '.', '5'] → l' = l) ∧
      tokenize [' ', '1', '+', '\t', '-', '.', '5'] = tokenize ['1', '+', '-', '.', '5']) ∧
    tokenize ['1', '.', '.', '2'] = .error (.secondPoint 2) ∧
    (Fault.secondPoint 2).kind = .malformed := by
  have hone : ∃ n : Numeral, n.text = ['1'] :=
    ⟨⟨none, ['1'], by simp, List.forall_mem_singleton.2 rfl, by decide⟩, rfl⟩
  have hpoint : ∀ c ∈ ['.', '5'], isNumeric c = true :=
    List.forall_mem_cons.2 ⟨rfl, List.forall_mem_singleton.2 rfl⟩
  have hhalf : ∃ n : Numeral, n.text = ['-', '.', '5'] :=
    ⟨⟨some .minus, ['.', '5'], by simp, hpoint, by decide⟩, rfl⟩
  obtain ⟨one, hone⟩ := hone
  obtain ⟨half, hhalf⟩ := hhalf
  have hnarrow : (Layout.mk (.bare one) [(.plus, .bare half)]).text =
      ['1', '+', '-', '.', '5'] := by
    show (Slot.bare one).text ++ ('+' :: ((Slot.bare half).text ++ [])) = _
    rw [Slot.text_bare, Slot.text_bare, hone, hhalf]
    rfl
  have hwide : (Layout.mk ⟨⟨[' '], List.forall_mem_singleton.2 rfl⟩, one, noBlanks⟩
      [(.plus, ⟨⟨['\t'], List.forall_mem_singleton.2 rfl⟩, half, noBlanks⟩)]).text =
      [' ', '1', '+', '\t', '-', '.', '5'] := by
    simp [Layout.text, Layout.restText, Slot.text, noBlanks, hone, hhalf, Operator.char]
  obtain ⟨-, hderivation, -⟩ := tokenize_iff_derivation ['1', '+', '-', '.', '5']
  obtain ⟨htokens, honly, hblanks⟩ := hderivation _ hnarrow
  refine ⟨⟨_, htokens, honly, ?_⟩, rfl, ?_⟩
  · rw [← hwide]
    exact hblanks _ rfl
  · exact (tokenize_iff_derivation ['1', '.', '.', '2']).2.2 _ rfl

end DeskCalc
