import DeskCalc.Proofs.Entry.Typing

set_option autoImplicit false

/-! # A run of operators

Operators that are pressed one after the other leave at most two characters behind a number: an
operator, and the sign of the next number (`Trails`). An operator other than the minus undoes all
presses before it (`Trails.press_binary`), and a second minus does nothing
(`Trails.press_minus_minus`). So the run comes to its last operator that is no minus, and to
whether a minus was pressed after that.
-/

namespace DeskCalc

namespace Entry

/-- The entry after several operators, pressed one after the other. -/
def pressOperators (e : Entry) (presses : List Operator) : Entry :=
  presses.foldl (fun e op => e.apply (.operator op.symbol)) e

theorem pressOperators_cons (e : Entry) (op : Operator) (presses : List Operator) :
    e.pressOperators (op :: presses) = (e.typeOperator op).pressOperators presses := by
  rw [pressOperators, List.foldl_cons, apply_operator e op.ofText?_symbol, pressOperators]

theorem pressOperators_append (e : Entry) (first second : List Operator) :
    e.pressOperators (first ++ second) = (e.pressOperators first).pressOperators second :=
  List.foldl_append

/-! ## One press -/

section Press

variable {text : List Char}

/-- An operator follows a number if there is room for it. -/
theorem typeOperator_number (h : standsAsSign text.reverse = false) (limit : Int)
    (op : Operator) :
    typeOperator ⟨text, limit⟩ op =
      ⟨if (text.length : Int) + 1 ≤ limit then text ++ [op.char] else text, limit⟩ := by
  refine eq_of_text ?_ (typeOperator_limit _ op)
  rcases List.eq_nil_or_concat text with rfl | ⟨front, c, rfl⟩
  · cases h
  · rw [List.concat_eq_append] at h ⊢
    rw [standsAsSign_concat] at h
    rw [typeOperator_concat _ op rfl, if_neg (by simp [h]), append_text]
    simp [fits]

/-- A minus follows another operator if there is room for it; any other press replaces the
operator. -/
theorem typeOperator_operator (h : standsAsSign text.reverse = false) (limit : Int)
    (last op : Operator) :
    typeOperator ⟨text ++ [last.char], limit⟩ op =
      ⟨if op = .minus ∧ last ≠ .minus then
          if (text.length : Int) + 2 ≤ limit then text ++ [last.char, '-'] else text ++ [last.char]
        else text ++ [op.char], limit⟩ := by
  refine eq_of_text ?_ (typeOperator_limit _ op)
  -- the operator follows a number, so that it is no sign
  have hbinary : ¬(last.char = '-' ∧ standsAsSign text.reverse = true) := by simp [h]
  rw [typeOperator_concat _ op rfl, if_pos (isOperator_char last), if_neg hbinary]
  by_cases hsign : op = .minus ∧ last ≠ .minus
  · have hchar : op = .minus ∧ last.char ≠ '-' := ⟨hsign.1, fun hc => hsign.2 (char_eq_minus.1 hc)⟩
    have hroom : (text.length : Int) + 1 + 1 ≤ limit ↔ (text.length : Int) + 2 ≤ limit := by omega
    rw [if_pos hchar, if_pos hsign, append_text, hsign.1]
    simp [fits, hroom, Operator.char]
  · have hchar : ¬(op = .minus ∧ last.char ≠ '-') := fun hc =>
      hsign ⟨hc.1, fun hlast => hc.2 (char_eq_minus.2 hlast)⟩
    rw [if_neg hchar, if_neg hsign]

/-- A sign stays under a minus and is replaced, together with the operator before it, by any other
press. -/
theorem typeOperator_sign (text : List Char) (limit : Int) (last op : Operator) :
    typeOperator ⟨text ++ [last.char, '-'], limit⟩ op =
      ⟨if op = .minus then text ++ [last.char, '-'] else text ++ [op.char], limit⟩ := by
  refine eq_of_text ?_ (typeOperator_limit _ op)
  have hconcat : text ++ [last.char, '-'] = (text ++ [last.char]) ++ ['-'] := by simp
  have hminus : isOperator '-' = true := rfl
  have hsign : '-' = '-' ∧ standsAsSign (text ++ [last.char]).reverse = true :=
    ⟨rfl, by rw [standsAsSign_concat, isOperator_char]⟩
  rw [typeOperator_concat _ op hconcat, if_pos hminus, if_neg (fun hop => hop.2 rfl), if_pos hsign]
  by_cases hop : op = .minus <;> simp [hop]

end Press

/-! ## What presses leave behind a number -/

/-- The entry holds a text, perhaps with an operator after it, and perhaps with a sign after that,
if there is room for them. -/
inductive Trails (text : List Char) (limit : Int) : Entry → Prop where
  | number : Trails text limit ⟨text, limit⟩
  | operator (last : Operator) (room : (text.length : Int) + 1 ≤ limit) :
      Trails text limit ⟨text ++ [last.char], limit⟩
  | sign (last : Operator) (room : (text.length : Int) + 2 ≤ limit) :
      Trails text limit ⟨text ++ [last.char, '-'], limit⟩

section Trails

variable {text : List Char} {limit : Int} {e : Entry}

/-- One more press leaves no more behind. -/
theorem Trails.press (h : standsAsSign text.reverse = false) (he : Trails text limit e)
    (op : Operator) : Trails text limit (e.typeOperator op) := by
  cases he with
  | number =>
      rw [typeOperator_number h]
      split
      · exact .operator op ‹_›
      · exact .number
  | operator last room =>
      rw [typeOperator_operator h]
      split_ifs
      · exact .sign last ‹_›
      · exact .operator last room
      · exact .operator op room
  | sign last room =>
      rw [typeOperator_sign]
      split
      · exact .sign last room
      · exact .operator op (by omega)

theorem Trails.pressAll (h : standsAsSign text.reverse = false) (he : Trails text limit e)
    (presses : List Operator) : Trails text limit (e.pressOperators presses) := by
  induction presses generalizing e with
  | nil => exact he
  | cons op presses ih =>
      rw [pressOperators_cons]
      exact ih (he.press h op)

/-- An operator other than the minus stands behind the number, whatever has been pressed before. -/
theorem Trails.press_binary (h : standsAsSign text.reverse = false) (he : Trails text limit e)
    {op : Operator} (hop : op ≠ .minus) :
    e.typeOperator op =
      ⟨if (text.length : Int) + 1 ≤ limit then text ++ [op.char] else text, limit⟩ := by
  cases he with
  | number => exact typeOperator_number h limit op
  | operator last room =>
      have hsign : ¬(op = .minus ∧ last ≠ .minus) := fun hsign => hop hsign.1
      rw [typeOperator_operator h, if_neg hsign, if_pos room]
  | sign last room =>
      have hroom : (text.length : Int) + 1 ≤ limit := by omega
      rw [typeOperator_sign, if_neg hop, if_pos hroom]

/-- After a minus, a minus does nothing. -/
theorem Trails.press_minus_minus (h : standsAsSign text.reverse = false)
    (he : Trails text limit e) :
    (e.typeOperator .minus).typeOperator .minus = e.typeOperator .minus := by
  cases he with
  | number =>
      rw [typeOperator_number h]
      split
      · exact typeOperator_operator h limit .minus .minus
      · rw [typeOperator_number h, if_neg ‹_›]
  | operator last room =>
      rw [typeOperator_operator h]
      split_ifs with hsign hroom
      · rw [typeOperator_sign, if_pos rfl]
      · rw [typeOperator_operator h, if_pos hsign, if_neg hroom]
      · exact typeOperator_operator h limit .minus .minus
  | sign last room =>
      rw [typeOperator_sign, if_pos rfl, typeOperator_sign, if_pos rfl]

/-- Several minuses are one minus. -/
theorem Trails.pressAll_minus (h : standsAsSign text.reverse = false) (he : Trails text limit e)
    {presses : List Operator} (hne : presses ≠ []) (hall : ∀ op ∈ presses, op = .minus) :
    e.pressOperators presses = e.typeOperator .minus := by
  induction presses generalizing e with
  | nil => exact absurd rfl hne
  | cons op presses ih =>
      obtain ⟨rfl, hrest⟩ := List.forall_mem_cons.1 hall
      rw [pressOperators_cons]
      by_cases hnil : presses = []
      · rw [hnil]
        rfl
      · rw [ih (he.press h .minus) hnil hrest, he.press_minus_minus h]

end Trails

/-! ## The whole run -/

/-- `op` is the last of the presses that is no minus, and `after` is what is pressed after it. -/
structure LastBinary (presses : List Operator) (op : Operator) (after : List Operator) : Prop where
  ne_minus : op ≠ .minus
  eq_minus : ∀ later ∈ after, later = .minus
  split : ∃ before, presses = before ++ op :: after

theorem all_minus_or_lastBinary (presses : List Operator) :
    (∀ op ∈ presses, op = .minus) ∨ ∃ op after, LastBinary presses op after := by
  induction presses with
  | nil => exact Or.inl (List.forall_mem_nil _)
  | cons first presses ih =>
      rcases ih with hall | ⟨op, after, hlast⟩
      · by_cases hfirst : first = .minus
        · exact Or.inl (List.forall_mem_cons.2 ⟨hfirst, hall⟩)
        · exact Or.inr ⟨first, presses, hfirst, hall, [], rfl⟩
      · obtain ⟨before, hsplit⟩ := hlast.split
        refine Or.inr ⟨op, after, hlast.ne_minus, hlast.eq_minus, first :: before, ?_⟩
        rw [hsplit, List.cons_append]

section Run

variable {text : List Char} {presses : List Operator}

theorem text_pressOperators_of_all_minus (h : standsAsSign text.reverse = false) (limit : Int)
    (hne : presses ≠ []) (hall : ∀ op ∈ presses, op = .minus) :
    (pressOperators ⟨text, limit⟩ presses).text =
      if (text.length : Int) + 1 ≤ limit then text ++ ['-'] else text := by
  rw [Trails.number.pressAll_minus h hne hall, typeOperator_number h]
  rfl

theorem text_pressOperators_of_lastBinary (h : standsAsSign text.reverse = false) (limit : Int)
    {op : Operator} {after : List Operator} (hlast : LastBinary presses op after) :
    (pressOperators ⟨text, limit⟩ presses).text =
      if limit ≤ text.length then text
      else if limit = text.length + 1 ∨ after = [] then text ++ [op.char]
      else text ++ [op.char, '-'] := by
  obtain ⟨before, rfl⟩ := hlast.split
  have hbefore : Trails text limit (pressOperators ⟨text, limit⟩ before) :=
    Trails.number.pressAll h before
  -- all that was pressed before the operator is undone by it
  rw [pressOperators_append, pressOperators_cons, hbefore.press_binary h hlast.ne_minus]
  by_cases hroom : limit ≤ text.length
  · have hfull : ¬(text.length : Int) + 1 ≤ limit := by omega
    have hminus : typeOperator ⟨text, limit⟩ .minus = ⟨text, limit⟩ := by
      rw [typeOperator_number h, if_neg hfull]
    rw [if_neg hfull, if_pos hroom]
    by_cases hafter : after = []
    · rw [hafter]
      rfl
    · rw [Trails.number.pressAll_minus h hafter hlast.eq_minus, hminus]
  · have hone : (text.length : Int) + 1 ≤ limit := by omega
    rw [if_pos hone, if_neg hroom]
    by_cases hafter : after = []
    · rw [if_pos (Or.inr hafter), hafter]
      rfl
    · have hsigned : Operator.minus = .minus ∧ op ≠ .minus := ⟨rfl, hlast.ne_minus⟩
      rw [(Trails.operator op hone).pressAll_minus h hafter hlast.eq_minus,
        typeOperator_operator h, if_pos hsigned]
      by_cases htwo : (text.length : Int) + 2 ≤ limit
      · rw [if_pos htwo, if_neg (by simp only [hafter, or_false]; omega)]
      · rw [if_neg htwo, if_pos (Or.inl (by omega))]

end Run

/-- With nothing typed, a run of operators comes to a minus if it has one. -/
theorem text_pressOperators_blank (limit : Int) (presses : List Operator) :
    ((blank limit).pressOperators presses).text = if .minus ∈ presses then ['-'] else [] := by
  induction presses using List.reverseRecOn with
  | nil => rfl
  | append_singleton presses op ih =>
      rw [pressOperators_append, pressOperators_cons]
      show (typeOperator _ op).text = _
      by_cases hminus : .minus ∈ presses
      · rw [if_pos hminus] at ih
        rw [typeOperator_lone_minus _ op ih, if_pos (List.mem_append_left _ hminus)]
      · rw [if_neg hminus] at ih
        rw [typeOperator_nil _ op ih]
        simp [hminus, eq_comm]

/-- **A run of operators.** The presses are all minuses, or one of them is the last that is no
minus. Behind a text that does not end in an operator they come to a minus in the first case, and
in the second to that operator, with a sign after it if a minus was pressed later. The sign is left
out if there is room for one character only, and both are if there is room for none. With nothing
typed, the presses come to a minus if there is one among them, and else to nothing. -/
theorem text_pressOperators (limit : Int) {presses : List Operator} (hne : presses ≠ []) :
    ((∀ op ∈ presses, op = .minus) ∨ ∃ op after, LastBinary presses op after) ∧
    (∀ (text : List Char) (c : Char), text.getLast? = some c → isOperator c = false →
      ((∀ op ∈ presses, op = .minus) →
        (pressOperators ⟨text, limit⟩ presses).text =
          if (text.length : Int) + 1 ≤ limit then text ++ ['-'] else text) ∧
      ∀ op after, LastBinary presses op after →
        (pressOperators ⟨text, limit⟩ presses).text =
          if limit ≤ text.length then text
          else if limit = text.length + 1 ∨ after = [] then text ++ [op.char]
          else text ++ [op.char, '-']) ∧
    (1 ≤ limit →
      ((blank limit).pressOperators presses).text = if .minus ∈ presses then ['-'] else []) := by
  refine ⟨all_minus_or_lastBinary presses, ?_, fun _ => text_pressOperators_blank limit presses⟩
  intro text c hlast hc
  obtain ⟨front, rfl⟩ := List.getLast?_eq_some_iff.1 hlast
  have hnumber : standsAsSign (front ++ [c]).reverse = false := by rw [standsAsSign_concat, hc]
  constructor
  · intro hall
    exact text_pressOperators_of_all_minus hnumber limit hne hall
  · intro op after hbinary
    exact text_pressOperators_of_lastBinary hnumber limit hbinary

/-- After `5`, the presses `- * + - -` come to `+-`, and to `+` if there is room for no more. -/
theorem text_pressOperators_sign :
    (pressOperators ⟨['5'], 3⟩ [.minus, .times, .plus, .minus, .minus]).text = ['5', '+', '-'] ∧
      (pressOperators ⟨['5'], 2⟩ [.minus, .times, .plus, .minus, .minus]).text = ['5', '+'] := by
  have hlast : LastBinary [.minus, .times, .plus, .minus, .minus] .plus [.minus, .minus] :=
    ⟨by decide, by decide, [.minus, .times], rfl⟩
  obtain ⟨-, hwide, -⟩ := text_pressOperators 3 (List.cons_ne_nil .minus
    [.times, .plus, .minus, .minus])
  obtain ⟨-, hnarrow, -⟩ := text_pressOperators 2 (List.cons_ne_nil .minus
    [.times, .plus, .minus, .minus])
  exact ⟨(hwide ['5'] '5' rfl rfl).2 .plus _ hlast, (hnarrow ['5'] '5' rfl rfl).2 .plus _ hlast⟩

end Entry

end DeskCalc
