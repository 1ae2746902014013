import DeskCalc.Proofs.Expression.Magnitude
import DeskCalc.Proofs.Window.Inputs
import DeskCalc.Proofs.Window.Steps

set_option autoImplicit false

/-! # No result is out of range

A text within the usual limit is short enough that nothing in its evaluation overflows. Edits keep
the text within the limit, so no key of the usual calculator leads to a result out of range. In a
window only buttons and keys reach the calculator, and they press it (`Window.Recorded.perform`).
-/

namespace DeskCalc

theorem editedFrom_eq (edits : List Edit) :
    editedFrom edits = (Entry.afterEdits Entry.defaultLimit edits).text := by
  induction edits using List.reverseRecOn with
  | nil => rfl
  | append_singleton edits edit ih =>
      rw [editedFrom_concat, Entry.afterEdits_concat, editText]
      exact congrArg (fun e : Entry => (e.apply edit).text)
        (Entry.eq_of_text ih.symm (Entry.afterEdits_limit _ edits)).symm

theorem length_editedFrom_le (edits : List Edit) :
    ((editedFrom edits).length : Int) ≤ Entry.defaultLimit := by
  rw [editedFrom_eq]
  exact Entry.length_afterEdits_le (by decide) edits

/-- At four bits for a character, the usual limit is far within the range of doubles. -/
theorem four_mul_length_lt {text : List Char} (h : (text.length : Int) ≤ Entry.defaultLimit) :
    4 * text.length < 1024 := by
  unfold Entry.defaultLimit at h
  omega

/-! ## The calculator -/

namespace Machine

variable {m : Machine} {edits : List Edit}

/-- The outcome on show is none, or that of a text that edits have led to. -/
theorem Records.not_isOverflow (h : m.Records edits) : ¬m.last.IsOverflow := by
  by_cases hlatest : ∃ before, LatestEvaluation edits before
  · obtain ⟨before, hbefore⟩ := hlatest
    obtain ⟨o, ho, hrange⟩ :=
      not_isOverflow_evaluateEntry (four_mul_length_lt (length_editedFrom_le before))
    have hsame : o = m.last := Except.ok.inj (ho.symm.trans (h.latest.evaluated before hbefore))
    rwa [← hsame]
  · rw [h.latest.empty fun before hbefore => hlatest ⟨before, hbefore⟩]
    exact not_isOverflow_empty

/-- Keys can be pressed one after the other. -/
theorem Records.pressAll (h : m.Records edits) (keys : List (Option Edit)) :
    ∃ m' edits', keys.foldlM Machine.press m = .ok m' ∧ m'.Records edits' := by
  induction keys generalizing m edits with
  | nil => exact ⟨m, edits, rfl, h⟩
  | cons key keys ih =>
      obtain ⟨next, hpress, hnext⟩ := h.press_key key
      obtain ⟨m', edits', hkeys, hm'⟩ := ih hnext
      refine ⟨m', edits', ?_, hm'⟩
      rw [List.foldlM_cons, hpress]
      exact hkeys

end Machine

/-- **Short expressions are in range.** The evaluation of a text within the usual limit, with or
without forgiveness for a trailing operator, gives an outcome that is no overflow. So keys pressed
on the usual calculator never fail and never lead to an overflow, and no step of a session with a
window does, whatever the settings file holds, whoever writes it and however it is read. -/
theorem results_in_range :
    (∀ text : List Char, (text.length : Int) ≤ Entry.defaultLimit →
      (∃ o, evaluate text = .ok o ∧ ¬o.IsOverflow) ∧
        ∃ o, evaluateEntry text = .ok o ∧ ¬o.IsOverflow) ∧
    (∀ keys : List (Option Edit),
      ∃ m, keys.foldlM Machine.press .default = .ok m ∧ ¬m.last.IsOverflow) ∧
    ∀ (file : Option String) (storage : Settings.Storage) (w : Window),
      Window.create file storage = .ok w →
      ∀ (steps : List Window.Step), ∀ done ∈ w.performAll steps,
        ¬done.1.machine.last.IsOverflow := by
  refine ⟨fun text htext => ?_, fun keys => ?_, fun file storage w hcreate steps done hdone => ?_⟩
  · have hshort := four_mul_length_lt htext
    exact ⟨not_isOverflow_evaluate hshort, not_isOverflow_evaluateEntry hshort⟩
  · obtain ⟨m, edits, hkeys, hm⟩ := Machine.records_default.pressAll keys
    exact ⟨m, hkeys, hm.not_isOverflow⟩
  · obtain ⟨edits, hrecords⟩ := (Window.recorded_create hcreate).performAll steps done hdone
    exact hrecords.not_isOverflow

/-- Every divisor is the least that counts as a number, and the text is as long as the limit. -/
theorem results_in_range_divisions :
    ∃ text o w,
      text = "9999999999999/.000000000000001/.000000000000001/.000000000000001".toList ∧
      text.length = 64 ∧ evaluate text = .ok o ∧ ¬o.IsOverflow ∧
      Window.create none = .ok w ∧
      ∀ done ∈ w.performAll (text.map fun c => .click (String.singleton c)),
        ¬done.1.machine.last.IsOverflow := by
  have hread : Settings.read Settings.Storage.ordinary.depth none = .ok [] := rfl
  have hcreate := Window.create_of_read hread
  have hlength :
      "9999999999999/.000000000000001/.000000000000001/.000000000000001".toList.length = 64 := by
    decide
  obtain ⟨⟨o, ho, hrange⟩, -⟩ := results_in_range.1 _ (by rw [hlength]; decide)
  exact ⟨_, o, _, rfl, hlength, ho, hrange, hcreate, results_in_range.2.2 none _ _ hcreate _⟩

end DeskCalc
