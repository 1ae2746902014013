import DeskCalc.Proofs.Entry.Grammar

set_option autoImplicit false

/-! # What can be typed

The texts that an entry can come to hold are those of the language `typable`. The edits look at
the end of the text; `Phase` says what they find there. The file first states each edit in
terms of the text read forward, then shows that every edit keeps a phase, and last that typing
a text of the language character by character gives that text.
-/

namespace DeskCalc

def Edit.ofChar (c : Char) : Edit :=
  if c.isDigit then .digits (String.singleton c)
  else if c = '.' then .point
  else .operator (String.singleton c)

namespace Entry

/-! ## Characters at the end of a text -/

theorem isOperator_char (op : Operator) : isOperator op.char = true :=
  (isOperator_iff _).2 ⟨op, rfl⟩

theorem isOperator_of_isDigit {c : Char} (h : c.isDigit = true) : isOperator c = false := by
  by_contra hc
  obtain ⟨op, rfl⟩ := (isOperator_iff c).1 (by simpa using hc)
  cases op <;> cases h

theorem char_eq_minus {op : Operator} : op.char = '-' ↔ op = .minus := by
  cases op <;> decide

@[simp] theorem standsAsSign_concat (text : List Char) (c : Char) :
    standsAsSign (text ++ [c]).reverse = isOperator c := by
  rw [List.reverse_append]
  rfl

theorem standsAsSign_eq {text : List Char} {p : Phase} (h : phase? text = some p) :
    standsAsSign text.reverse = !p.inNumber := by
  rcases List.eq_nil_or_concat text with rfl | ⟨text, c, rfl⟩
  · cases h
    rfl
  · rw [List.concat_eq_append] at h ⊢
    rw [standsAsSign_concat]
    obtain ⟨q, -, hnext⟩ := phase?_concat_eq_some.1 h
    rcases Phase.next_cases hnext with ⟨hc, rfl⟩ | ⟨rfl, rfl, rfl⟩ | ⟨op, rfl, hop⟩
    · rw [isOperator_of_isDigit hc]
      cases q <;> rfl
    · rfl
    · rw [isOperator_char]
      rcases Phase.afterOperator_cases hop with ⟨-, -, rfl⟩ | ⟨-, rfl⟩ | ⟨_, -, -, -, rfl⟩ <;> rfl

/-- A text ends in an operator exactly outside of numbers. -/
theorem isOperator_last {text : List Char} {c : Char} {p : Phase}
    (h : phase? (text ++ [c]) = some p) : isOperator c = !p.inNumber := by
  rw [← standsAsSign_eq h, standsAsSign_concat]

/-- The number being typed has a point exactly in the phase of fractions. -/
theorem point_mem_segment_iff {text : List Char} {p : Phase} (h : phase? text = some p) :
    '.' ∈ segment text ↔ p = .fraction := by
  unfold segment
  rw [List.mem_reverse]
  induction text using List.reverseRecOn generalizing p with
  | nil =>
      cases h
      simp [takeSegment]
  | append_singleton text c ih =>
      obtain ⟨q, hq, hnext⟩ := phase?_concat_eq_some.1 h
      rw [List.reverse_append, List.reverse_singleton, List.singleton_append, takeSegment]
      rcases Phase.next_cases hnext with ⟨hc, rfl⟩ | ⟨rfl, rfl, rfl⟩ | ⟨op, rfl, hop⟩
      · have hne : '.' ≠ c := by
          rintro rfl
          cases hc
        rw [if_neg (by simp [isOperator_of_isDigit hc]), List.mem_cons, ih hq]
        cases q <;> simp [Phase.afterDigit, hne]
      · have hpoint : isOperator '.' = false := rfl
        rw [if_neg (by simp [hpoint])]
        simp
      · have hne : '.' ≠ op.char := by cases op <;> decide
        -- the segment begins at the operator or, if that is a sign, goes on before it
        rcases Phase.afterOperator_cases hop with
          ⟨rfl, rfl, rfl⟩ | ⟨hnum, rfl⟩ | ⟨before, rfl, -, rfl, rfl⟩
        · have := ih hq
          split <;> simp_all
        · rw [if_pos (by simp [isOperator_char, standsAsSign_eq hq, hnum])]
          simp
        · have := ih hq
          split <;> simp_all

/-! ## The edits, read forward -/

theorem eq_of_text {e : Entry} {text : List Char} {limit : Int} (htext : e.text = text)
    (hlimit : e.limit = limit) : e = ⟨text, limit⟩ := by
  cases htext
  cases hlimit
  rfl

theorem append_text (e : Entry) (more : List Char) :
    (e.append more).text = if e.fits more then e.text ++ more else e.text := by
  unfold append
  split <;> rfl

@[simp] theorem append_limit (e : Entry) (more : List Char) :
    (e.append more).limit = e.limit := by
  unfold append
  split <;> rfl

/-- Where a minus would be a sign, a point begins a number. -/
theorem typePoint_eq (e : Entry) :
    e.typePoint =
      if standsAsSign e.text.reverse then e.append ['0', '.']
      else if '.' ∈ segment e.text then e else e.append ['.'] := by
  unfold typePoint
  split <;> rename_i h <;> rw [h] <;> rfl

theorem typeOperator_nil (e : Entry) (op : Operator) (h : e.text = []) :
    (e.typeOperator op).text = if op = .minus then ['-'] else [] := by
  unfold typeOperator
  rw [h]
  dsimp only [List.reverse_nil]
  split
  · rename_i hop
    rw [hop]
    rfl
  · exact h

/-- An operator at the end of a text stays, is replaced, or is replaced together with the
operator before it. -/
theorem typeOperator_concat (e : Entry) (op : Operator) {text : List Char} {c : Char}
    (h : e.text = text ++ [c]) :
    (e.typeOperator op).text =
      if isOperator c then
        if op = .minus ∧ c ≠ '-' then (e.append [op.char]).text
        else if c = '-' ∧ standsAsSign text.reverse then
          if op = .minus ∨ text = [] then text ++ [c] else text.dropLast ++ [op.char]
        else text ++ [op.char]
      else (e.append [op.char]).text := by
  unfold typeOperator
  rw [h, List.reverse_append, List.reverse_singleton, List.singleton_append]
  simp only [List.reverse_eq_nil_iff]
  split_ifs <;> simp [h]

/-- The minus that begins a text stays under every operator. -/
theorem typeOperator_lone_minus (e : Entry) (op : Operator) (h : e.text = ['-']) :
    (e.typeOperator op).text = ['-'] := by
  have hconcat : e.text = [] ++ ['-'] := h
  rw [typeOperator_concat e op hconcat]
  cases op <;> rfl

@[simp] theorem typeOperator_limit (e : Entry) (op : Operator) :
    (e.typeOperator op).limit = e.limit := by
  unfold typeOperator
  split
  · split <;> rfl
  · split_ifs <;> simp

@[simp] theorem typePoint_limit (e : Entry) : e.typePoint.limit = e.limit := by
  rw [typePoint_eq]
  split_ifs <;> simp

@[simp] theorem typeDigits_limit (e : Entry) (run : List Char) :
    (e.typeDigits run).limit = e.limit := by
  unfold typeDigits
  split <;> simp

theorem apply_operator (e : Entry) {symbol : String} {op : Operator}
    (h : Operator.ofText? symbol.toList = some op) :
    e.apply (.operator symbol) = e.typeOperator op := by
  simp only [apply, h]

/-- A symbol that is no operator does nothing. -/
theorem apply_operator_cases (e : Entry) (symbol : String) :
    e.apply (.operator symbol) = e ∨
      ∃ op : Operator, e.apply (.operator symbol) = e.typeOperator op := by
  cases hop : Operator.ofText? symbol.toList with
  | none =>
      refine Or.inl ?_
      simp only [apply, hop]
  | some op => exact Or.inr ⟨op, apply_operator e hop⟩

@[simp] theorem apply_limit (e : Entry) (edit : Edit) : (e.apply edit).limit = e.limit := by
  cases edit with
  | digits run => exact typeDigits_limit e run.toList
  | point => exact typePoint_limit e
  | operator symbol =>
      rcases apply_operator_cases e symbol with h | ⟨op, h⟩
      · rw [h]
      · rw [h, typeOperator_limit]
  | backspace => rfl
  | reset => rfl
  | evaluate => rfl

/-! ## Edits keep the language -/

theorem eq_nil_of_phase? {text : List Char} (h : phase? text = some .start) : text = [] :=
  mem_language_of_phase? h

/-- A text in the phase of an operator is a number and that operator after it. -/
theorem exists_concat_of_phase? {text : List Char} {op : Operator}
    (h : phase? text = some (.operator op)) :
    ∃ front p, text = front ++ [op.char] ∧ phase? front = some p ∧ p.inNumber = true := by
  rcases List.eq_nil_or_concat text with rfl | ⟨front, c, rfl⟩
  · cases h
  rw [List.concat_eq_append] at h ⊢
  obtain ⟨p, hp, hnext⟩ := phase?_concat_eq_some.1 h
  rcases Phase.next_cases hnext with ⟨-, hq⟩ | ⟨-, -, hq⟩ | ⟨last, rfl, hlast⟩
  · cases p <;> cases hq
  · cases hq
  rcases Phase.afterOperator_cases hlast with ⟨-, -, hq⟩ | ⟨hnumber, hq⟩ | ⟨_, -, -, -, hq⟩
  · cases hq
  · cases hq
    exact ⟨front, p, rfl, hp, hnumber⟩
  · cases hq

theorem concat_mem_typable {text : List Char} {c : Char} {p q : Phase}
    (h : phase? text = some p) (hnext : p.next c = some q) : text ++ [c] ∈ typable :=
  mem_typable_iff.2 ⟨q, phase?_concat_eq_some.2 ⟨p, h, hnext⟩⟩

theorem append_mem_typable {e : Entry} {more : List Char} (h : e.text ∈ typable)
    (hmore : e.text ++ more ∈ typable) : (e.append more).text ∈ typable := by
  rw [append_text]
  split
  · exact hmore
  · exact h

theorem append_digits_mem_typable {text run : List Char} (h : text ∈ typable)
    (hrun : ∀ c ∈ run, c.isDigit = true) : text ++ run ∈ typable := by
  induction run generalizing text with
  | nil => rwa [List.append_nil]
  | cons c run ih =>
      obtain ⟨p, hp⟩ := mem_typable_iff.1 h
      rw [List.append_cons]
      refine ih ?_ fun d hd => hrun d (List.mem_cons_of_mem _ hd)
      exact concat_mem_typable hp (p.next_digit (hrun c List.mem_cons_self))

theorem typeDigits_mem_typable {e : Entry} (run : List Char) (h : e.text ∈ typable) :
    (e.typeDigits run).text ∈ typable := by
  unfold typeDigits
  split
  · rename_i hrun
    exact append_mem_typable h (append_digits_mem_typable h (List.all_eq_true.1 hrun))
  · exact h

theorem typePoint_mem_typable {e : Entry} (h : e.text ∈ typable) :
    e.typePoint.text ∈ typable := by
  obtain ⟨p, hp⟩ := mem_typable_iff.1 h
  rw [typePoint_eq, standsAsSign_eq hp]
  split_ifs with hsign hpoint
  · -- a zero begins the number, and the point follows it
    have hwhole : phase? (e.text ++ ['0']) = some .whole := by
      refine phase?_concat_eq_some.2 ⟨p, hp, ?_⟩
      rw [p.next_digit rfl, Phase.afterDigit_of_not_inNumber (by simpa using hsign)]
    refine append_mem_typable h ?_
    rw [List.append_cons]
    exact concat_mem_typable hwhole Phase.whole.next_point
  · exact h
  · rw [point_mem_segment_iff hp] at hpoint
    have hwhole : p = .whole := by cases p <;> simp_all [Phase.inNumber]
    subst hwhole
    exact append_mem_typable h (concat_mem_typable hp Phase.whole.next_point)

theorem append_operator_mem_typable {text : List Char} {p : Phase} (op : Operator)
    (h : phase? text = some p) (hp : p.inNumber = true) : text ++ [op.char] ∈ typable :=
  concat_mem_typable h ((p.next_operator op).trans (Phase.afterOperator_of_inNumber hp op))

theorem typeOperator_mem_typable {e : Entry} (op : Operator) (h : e.text ∈ typable) :
    (e.typeOperator op).text ∈ typable := by
  obtain ⟨p, hp⟩ := mem_typable_iff.1 h
  rcases List.eq_nil_or_concat e.text with htext | ⟨text, c, htext⟩
  · rw [typeOperator_nil e op htext]
    split
    · exact mem_typable_iff.2 ⟨.sign, rfl⟩
    · exact mem_typable_iff.2 ⟨.start, rfl⟩
  rw [List.concat_eq_append] at htext
  rw [typeOperator_concat e op htext]
  have hlast := isOperator_last (htext ▸ hp)
  cases hp' : p.inNumber with
  | true =>
      rw [if_neg (by simp [hlast, hp'])]
      exact append_mem_typable h (append_operator_mem_typable op hp hp')
  | false =>
  rw [hp', Bool.not_false] at hlast
  obtain ⟨last, rfl⟩ := (isOperator_iff c).1 hlast
  obtain ⟨q, hq, hnext⟩ := phase?_concat_eq_some.1 (htext ▸ hp)
  rw [Phase.next_operator] at hnext
  rw [if_pos hlast, standsAsSign_eq hq]
  rcases Phase.afterOperator_cases hnext with
    ⟨rfl, rfl, rfl⟩ | ⟨hnumber, rfl⟩ | ⟨before, rfl, hbefore, rfl, rfl⟩
  · -- the text is a single minus, which stays
    rw [if_neg (fun hop => hop.2 rfl), if_pos ⟨rfl, rfl⟩, if_pos (Or.inr (eq_nil_of_phase? hq)),
      ← htext]
    exact h
  · have hbinary : ¬(last.char = '-' ∧ (!q.inNumber) = true) := by simp [hnumber]
    rw [if_neg hbinary]
    split
    · -- a minus is the sign of the next number
      rename_i hop
      have hsign : (Phase.operator last).next op.char = some .operatorSign := by
        rw [hop.1, Phase.next_operator]
        exact if_pos ⟨rfl, fun hminus => hop.2 (char_eq_minus.2 hminus)⟩
      exact append_mem_typable h (concat_mem_typable hp hsign)
    · exact append_operator_mem_typable op hq hnumber
  · -- a sign after an operator stays or goes together with it
    obtain ⟨front, r, rfl, hr, hnumber⟩ := exists_concat_of_phase? hq
    rw [if_neg (fun hop => hop.2 rfl), if_pos ⟨rfl, rfl⟩]
    split
    · rw [← htext]
      exact h
    · rw [List.dropLast_concat]
      exact append_operator_mem_typable op hr hnumber

/-- A text of the language is left when the last character is taken away. -/
theorem dropLast_mem_typable {text : List Char} (h : text ∈ typable) :
    text.dropLast ∈ typable := by
  rcases List.eq_nil_or_concat text with rfl | ⟨front, c, rfl⟩
  · exact h
  rw [List.concat_eq_append] at h ⊢
  rw [List.dropLast_concat]
  obtain ⟨p, hp⟩ := mem_typable_iff.1 h
  obtain ⟨q, hq, -⟩ := phase?_concat_eq_some.1 hp
  exact mem_typable_iff.2 ⟨q, hq⟩

theorem apply_mem_typable {e : Entry} (edit : Edit) (h : e.text ∈ typable) :
    (e.apply edit).text ∈ typable := by
  cases edit with
  | digits run => exact typeDigits_mem_typable run.toList h
  | point => exact typePoint_mem_typable h
  | operator symbol =>
      rcases apply_operator_cases e symbol with hsame | ⟨op, hop⟩
      · rwa [hsame]
      · rw [hop]
        exact typeOperator_mem_typable op h
  | backspace => exact dropLast_mem_typable h
  | reset => exact mem_typable_iff.2 ⟨.start, rfl⟩
  | evaluate => exact h

/-! ## Edits keep the limit -/

theorem length_append_le (e : Entry) (more : List Char) :
    ((e.append more).text.length : Int) ≤ max (e.text.length : Int) e.limit := by
  rw [append_text]
  split
  · rename_i hfits
    have : (e.text.length : Int) + more.length ≤ e.limit := by simpa [fits] using hfits
    rw [List.length_append]
    omega
  · omega

theorem length_typeOperator_le {e : Entry} {op : Operator} (h : e.text = [] → op ≠ .minus) :
    ((e.typeOperator op).text.length : Int) ≤ max (e.text.length : Int) e.limit := by
  have happend := length_append_le e [op.char]
  rcases List.eq_nil_or_concat e.text with htext | ⟨text, c, htext⟩
  · rw [typeOperator_nil e op htext, if_neg (h htext)]
    simp
  rw [List.concat_eq_append] at htext
  rw [typeOperator_concat e op htext]
  have hlength : e.text.length = text.length + 1 := by simp [htext]
  have hsame : (text ++ [c]).length = text.length + 1 := List.length_append
  have hlast : (text ++ [op.char]).length = text.length + 1 := List.length_append
  have hboth : (text.dropLast ++ [op.char]).length ≤ text.length + 1 := by simp
  split_ifs <;> omega

theorem eq_minus_of_ofText? {symbol : String}
    (h : Operator.ofText? symbol.toList = some .minus) : symbol = "-" := by
  refine String.toList_inj.1 ?_
  unfold Operator.ofText? at h
  split at h
  · rename_i c hsymbol
    rw [hsymbol, Operator.ofChar?_eq_some_iff.1 h]
    rfl
  · cases h

/-- An edit makes a text no longer than the limit or what it was, unless it is a minus that begins
the text. -/
theorem length_apply_le {e : Entry} {edit : Edit} (h : e.text = [] → edit ≠ .operator "-") :
    ((e.apply edit).text.length : Int) ≤ max (e.text.length : Int) e.limit := by
  cases edit with
  | digits run =>
      have happend := length_append_le e run.toList
      show ((e.typeDigits run.toList).text.length : Int) ≤ _
      unfold typeDigits
      split <;> omega
  | point =>
      have hzero := length_append_le e ['0', '.']
      have hpoint := length_append_le e ['.']
      show (e.typePoint.text.length : Int) ≤ _
      rw [typePoint_eq]
      split_ifs <;> omega
  | operator symbol =>
      cases hop : Operator.ofText? symbol.toList with
      | none =>
          simp only [apply, hop]
          omega
      | some op =>
          rw [apply_operator e hop]
          refine length_typeOperator_le fun htext hminus => h htext ?_
          exact congrArg Edit.operator (eq_minus_of_ofText? (hop.trans (congrArg some hminus)))
  | backspace =>
      show (e.text.dropLast.length : Int) ≤ _
      rw [List.length_dropLast]
      omega
  | reset =>
      show ((0 : Nat) : Int) ≤ _
      omega
  | evaluate =>
      show (e.text.length : Int) ≤ _
      omega

/-- A minus begins a text at any limit. -/
theorem apply_minus_of_nil {e : Entry} (h : e.text = []) :
    (e.apply (.operator "-")).text = ['-'] := by
  have hminus : Operator.ofText? "-".toList = some .minus := by decide
  rw [apply_operator e hminus, typeOperator_nil e .minus h, if_pos rfl]

/-! ## Runs of edits -/

/-- The entry after a run of edits, beginning with nothing typed. -/
def afterEdits (limit : Int) (edits : List Edit) : Entry := edits.foldl apply (blank limit)

theorem afterEdits_concat (limit : Int) (edits : List Edit) (edit : Edit) :
    afterEdits limit (edits ++ [edit]) = (afterEdits limit edits).apply edit := by
  simp [afterEdits]

/-- Whatever is typed, the text is one of the language. -/
theorem afterEdits_mem_typable (limit : Int) (edits : List Edit) :
    (afterEdits limit edits).text ∈ typable := by
  induction edits using List.reverseRecOn with
  | nil => exact mem_typable_iff.2 ⟨.start, rfl⟩
  | append_singleton edits edit ih =>
      rw [afterEdits_concat]
      exact apply_mem_typable edit ih

@[simp] theorem afterEdits_limit (limit : Int) (edits : List Edit) :
    (afterEdits limit edits).limit = limit := by
  induction edits using List.reverseRecOn with
  | nil => rfl
  | append_singleton edits edit ih => rw [afterEdits_concat, apply_limit, ih]

theorem length_afterEdits_le {limit : Int} (hlimit : 1 ≤ limit) (edits : List Edit) :
    ((afterEdits limit edits).text.length : Int) ≤ limit := by
  induction edits using List.reverseRecOn with
  | nil =>
      show ((0 : Nat) : Int) ≤ limit
      omega
  | append_singleton edits edit ih =>
      rw [afterEdits_concat]
      by_cases hminus : (afterEdits limit edits).text = [] ∧ edit = .operator "-"
      · rw [hminus.2, apply_minus_of_nil hminus.1]
        exact hlimit
      · have hlength := length_apply_le fun htext hedit => hminus ⟨htext, hedit⟩
        rw [afterEdits_limit] at hlength
        omega

/-! ## Typing a text -/

theorem append_of_fits {text more : List Char} {limit : Int}
    (h : ((text ++ more).length : Int) ≤ limit) :
    (Entry.mk text limit).append more = ⟨text ++ more, limit⟩ := by
  rw [List.length_append, Int.natCast_add] at h
  exact if_pos (decide_eq_true h)

theorem typeOperator_of_afterOperator {text : List Char} {op : Operator} {p q : Phase}
    {limit : Int} (hp : phase? text = some p) (hop : p.afterOperator op = some q)
    (hlimit : ((text ++ [op.char]).length : Int) ≤ limit) :
    ((Entry.mk text limit).typeOperator op).text = text ++ [op.char] := by
  have happend := congrArg Entry.text (append_of_fits hlimit)
  rcases Phase.afterOperator_cases hop with ⟨rfl, rfl, -⟩ | ⟨hnumber, -⟩ | ⟨last, rfl, hne, rfl, -⟩
  · rw [eq_nil_of_phase? hp, typeOperator_nil _ _ rfl]
    rfl
  · rcases List.eq_nil_or_concat text with rfl | ⟨front, c, rfl⟩
    · cases hp
      cases hnumber
    · rw [List.concat_eq_append] at *
      have hc : isOperator c = false := by rw [isOperator_last hp, hnumber, Bool.not_true]
      rw [typeOperator_concat _ _ rfl, if_neg (by simp [hc]), happend]
  · obtain ⟨front, -, rfl, -, -⟩ := exists_concat_of_phase? hp
    have hsign : Operator.minus = .minus ∧ last.char ≠ '-' :=
      ⟨rfl, fun h => hne (char_eq_minus.1 h)⟩
    rw [typeOperator_concat _ _ rfl, if_pos (isOperator_char last), if_pos hsign, happend]

theorem apply_ofChar {text : List Char} {c : Char} {p q : Phase} {limit : Int}
    (hp : phase? text = some p) (hnext : p.next c = some q)
    (hlimit : ((text ++ [c]).length : Int) ≤ limit) :
    ((Entry.mk text limit).apply (Edit.ofChar c)).text = text ++ [c] := by
  have happend := congrArg Entry.text (append_of_fits hlimit)
  rcases Phase.next_cases hnext with ⟨hc, -⟩ | ⟨rfl, rfl, -⟩ | ⟨op, rfl, hop⟩
  · have hedit : Edit.ofChar c = .digits (String.singleton c) := if_pos hc
    rw [hedit]
    show (typeDigits _ (String.singleton c).toList).text = _
    rw [String.toList_singleton]
    exact (congrArg Entry.text (if_pos (by simp [hc]))).trans happend
  · have hpoint : '.' ∉ segment text := by
      rw [point_mem_segment_iff hp]
      exact Phase.noConfusion
    show (typePoint _).text = _
    rw [typePoint_eq, standsAsSign_eq hp, if_neg (by decide), if_neg hpoint, happend]
  · have hedit : Edit.ofChar op.char = .operator op.symbol := by
      cases op <;> rfl
    rw [hedit, apply_operator _ op.ofText?_symbol, typeOperator_of_afterOperator hp hop hlimit]

/-- A text of the language, typed character by character, is what the entry then holds. -/
theorem afterEdits_ofChar {text : List Char} {limit : Int} (h : text ∈ typable)
    (hlimit : (text.length : Int) ≤ limit) :
    (afterEdits limit (text.map Edit.ofChar)).text = text := by
  obtain ⟨p, hp⟩ := mem_typable_iff.1 h
  induction text using List.reverseRecOn generalizing p with
  | nil => rfl
  | append_singleton text c ih =>
      obtain ⟨q, hq, hnext⟩ := phase?_concat_eq_some.1 hp
      have hshorter : (text.length : Int) ≤ limit := by
        rw [List.length_append] at hlimit
        omega
      have hfront : afterEdits limit (text.map Edit.ofChar) = ⟨text, limit⟩ :=
        eq_of_text (ih (mem_typable_iff.2 ⟨q, hq⟩) hshorter q hq) (afterEdits_limit limit _)
      rw [List.map_append, List.map_singleton, afterEdits_concat, hfront,
        apply_ofChar hq hnext hlimit]

/-- **The language of the entry line.** Every edit of a text of the language, at any limit,
gives a text of the language. At a limit of at least one, the texts that edits can reach from
nothing are exactly the texts of the language within the limit, and each of them is reached by
typing its characters one at a time. -/
theorem typable_iff_typed :
    (∀ (limit : Int) (text : List Char) (edit : Edit),
      text ∈ typable → editText text edit limit ∈ typable) ∧
    ∀ limit : Int, 1 ≤ limit →
      (∀ text, (∃ edits, (afterEdits limit edits).text = text) ↔
        text ∈ typable ∧ (text.length : Int) ≤ limit) ∧
      ∀ text, text ∈ typable → (text.length : Int) ≤ limit →
        (afterEdits limit (text.map Edit.ofChar)).text = text := by
  refine ⟨fun limit text edit h => apply_mem_typable edit h, fun limit hlimit => ⟨?_, ?_⟩⟩
  · intro text
    constructor
    · rintro ⟨edits, rfl⟩
      exact ⟨afterEdits_mem_typable limit edits, length_afterEdits_le hlimit edits⟩
    · rintro ⟨htext, hlength⟩
      exact ⟨text.map Edit.ofChar, afterEdits_ofChar htext hlength⟩
  · exact fun text htext hlength => afterEdits_ofChar htext hlength

/-- A pending sign gives way beyond the limit, and a text as long as the limit is typed. -/
theorem typable_iff_typed_at_limit :
    ['5', '*', '-'] ∈ typable ∧ editText ['5', '*', '-'] (.operator "+") 2 ∈ typable ∧
      (afterEdits 6 (['-', '1', '.', '*', '-', '2'].map Edit.ofChar)).text =
        ['-', '1', '.', '*', '-', '2'] := by
  have hpending : ['5', '*', '-'] ∈ typable := by decide
  refine ⟨hpending, typable_iff_typed.1 2 _ (.operator "+") hpending, ?_⟩
  exact (typable_iff_typed.2 6 (by decide)).2 _ (by decide) (by decide)

end Entry

end DeskCalc
