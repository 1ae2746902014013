import DeskCalc.Proofs.Entry.Typing

set_option autoImplicit false

/-! # The limit on the length

Whatever an edit adds has to fit within the limit, and whatever it replaces is no shorter than what
comes in its place. The one exception is a minus at the beginning of a text, which is put down
without a look at the limit (`length_editText_le_iff`). So the limit holds at every run of edits if
it leaves room for that minus. If it does not, the minus is all that can be typed
(`afterEdits_eq_minus_iff`).
-/

namespace DeskCalc

namespace Entry

variable {e : Entry}

/-! ## Without room -/

/-- Without any room nothing is added. -/
theorem append_text_of_limit_le (h : e.limit ≤ 0) (more : List Char) :
    (e.append more).text = e.text := by
  rw [append_text]
  split
  · rename_i hfits
    have hroom : (e.text.length : Int) + more.length ≤ e.limit := by simpa [fits] using hfits
    have hmore : more = [] := List.eq_nil_of_length_eq_zero (by omega)
    rw [hmore, List.append_nil]
  · rfl

/-- Without any room no edit leads beyond a single minus. -/
theorem apply_minus_or_nil (hlimit : e.limit ≤ 0) (h : e.text = [] ∨ e.text = ['-'])
    (edit : Edit) : (e.apply edit).text = [] ∨ (e.apply edit).text = ['-'] := by
  have happend := append_text_of_limit_le hlimit
  cases edit with
  | digits run =>
      show (e.typeDigits run.toList).text = [] ∨ (e.typeDigits run.toList).text = ['-']
      unfold typeDigits
      split
      · rwa [happend]
      · exact h
  | point =>
      show e.typePoint.text = [] ∨ e.typePoint.text = ['-']
      rw [typePoint_eq]
      split_ifs
      · rwa [happend]
      · exact h
      · rwa [happend]
  | operator symbol =>
      rcases apply_operator_cases e symbol with hsame | ⟨op, hop⟩
      · rwa [hsame]
      · rw [hop]
        rcases h with htext | htext
        · rw [typeOperator_nil e op htext]
          split
          · exact Or.inr rfl
          · exact Or.inl rfl
        · exact Or.inr (typeOperator_lone_minus e op htext)
  | backspace =>
      refine Or.inl ?_
      show e.text.dropLast = []
      rcases h with htext | htext <;> rw [htext] <;> rfl
  | reset => exact Or.inl rfl
  | evaluate => exact h

theorem afterEdits_eq_minus_iff {limit : Int} (hlimit : limit ≤ 0) (text : List Char) :
    (∃ edits, (afterEdits limit edits).text = text) ↔ text = [] ∨ text = ['-'] := by
  constructor
  · rintro ⟨edits, rfl⟩
    induction edits using List.reverseRecOn with
    | nil => exact Or.inl rfl
    | append_singleton edits edit ih =>
        rw [afterEdits_concat]
        refine apply_minus_or_nil ?_ ih edit
        rwa [afterEdits_limit]
  · rintro (rfl | rfl)
    · exact ⟨[], rfl⟩
    · exact ⟨[.operator "-"], apply_minus_of_nil (e := blank limit) rfl⟩

/-! ## One edit and runs of edits -/

/-- **The limit on the length.** An edit leads to a text that is longer than the limit and longer
than the text before it in one case only: a minus begins a text and the limit leaves no room for
it. So runs of edits stay within the limit if it is at least one and not otherwise, and without any
room they lead to nothing or to that minus. -/
theorem length_editText_le_iff (limit : Int) :
    (∀ (text : List Char) (edit : Edit),
      ((editText text edit limit).length : Int) ≤ max (text.length : Int) limit ↔
        ¬(text = [] ∧ edit = .operator "-" ∧ limit ≤ 0)) ∧
    ((∀ edits, ((afterEdits limit edits).text.length : Int) ≤ limit) ↔ 1 ≤ limit) ∧
    (limit ≤ 0 →
      ∀ text, (∃ edits, (afterEdits limit edits).text = text) ↔ text = [] ∨ text = ['-']) := by
  refine ⟨fun text edit => ?_, ⟨fun hruns => ?_, length_afterEdits_le⟩, afterEdits_eq_minus_iff⟩
  · by_cases hminus : text = [] ∧ edit = .operator "-"
    · obtain ⟨rfl, rfl⟩ := hminus
      have hone : (editText [] (.operator "-") limit).length = 1 :=
        congrArg List.length (apply_minus_of_nil (e := ⟨[], limit⟩) rfl)
      have hzero : ([] : List Char).length = 0 := rfl
      simp only [true_and]
      omega
    · refine iff_of_true ?_ fun h => hminus ⟨h.1, h.2.1⟩
      exact length_apply_le (e := ⟨text, limit⟩) fun htext hedit => hminus ⟨htext, hedit⟩
  · -- the minus alone is a run of edits
    have hone : (afterEdits limit [.operator "-"]).text = ['-'] :=
      apply_minus_of_nil (e := blank limit) rfl
    have hlength := hruns [.operator "-"]
    rw [hone] at hlength
    exact hlength

/-- With room for one character a minus keeps out the digits after it, and with room for none it is
still put down. -/
theorem length_editText_le_iff_minus :
    ((afterEdits 1 [.operator "-", .digits "5"]).text.length : Int) ≤ 1 ∧
      ∃ edits, (afterEdits 0 edits).text = ['-'] := by
  obtain ⟨-, hone, -⟩ := length_editText_le_iff 1
  obtain ⟨-, -, hzero⟩ := length_editText_le_iff 0
  exact ⟨hone.2 (by decide) _, (hzero (by decide) ['-']).2 (Or.inr rfl)⟩

/-- At the limit nought a minus is longer than the limit and longer than the text before it. -/
theorem length_editText_minus :
    ¬((editText [] (.operator "-") 0).length : Int) ≤ max (([] : List Char).length : Int) 0 ∧
      ¬((afterEdits 0 [.operator "-"]).text.length : Int) ≤ 0 := by
  decide

end Entry

end DeskCalc
