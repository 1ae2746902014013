import DeskCalc.Machine
import DeskCalc.Proofs.Entry.Total
import DeskCalc.Proofs.Entry.Typing
import DeskCalc.Proofs.Readout.Notation

set_option autoImplicit false

/-! # The calculator after edits

The expression line is built by the edits one after the other. The outcome stays on show while the
expression is edited: it belongs to the latest evaluation, unless everything has been reset since
(`LatestEvaluation`). A calculator that has both right (`Machine.Records`) keeps them right under
every edit, and no edit fails (`Machine.Records.press`).
-/

namespace DeskCalc

/-! ## What the result line shows

The outcome of a text can always be shown, because a number that is an outcome is finite
(`Outcome.Sound.exists_showOutcome`). The word for a fault is shown for a fault and for nothing
else (`showOutcome_eq_faultText_iff`): every number begins with a minus sign or a digit.
-/

/-- A number that is an outcome of a text is finite, so it can be shown. -/
theorem Outcome.Sound.exists_showOutcome {o : Outcome} {length : Nat} (h : o.Sound length)
    (places : Int) : ∃ display, showOutcome o places = .ok display := by
  cases o with
  | empty => exact ⟨"", rfl⟩
  | failure f => exact ⟨Readout.faultText, rfl⟩
  | value x =>
      obtain ⟨s, hs, -⟩ := h.shape
      cases s with
      | number =>
          obtain ⟨⟨_, hx, hfinite⟩, -⟩ := hs
          cases hx
          cases x with
          | finite sign units inBounds => exact ⟨_, showNumber_finite sign inBounds places⟩
          | infinite sign => cases hfinite
          | nan => cases hfinite
      | fault => cases hs.1
      | nothing => cases hs.1

/-- No number is shown as the word for a fault. -/
theorem showNumber_ne_faultText (x : Double) (places : Int) :
    showNumber x places ≠ .ok Readout.faultText := by
  cases x with
  | infinite | nan => exact nofun
  | finite s u h =>
      rw [showNumber_finite s h]
      intro hword
      have hhead := congrArg (fun text : String => text.toList.head?) (Except.ok.inj hword)
      rw [String.toList_ofList] at hhead
      rcases PlainDecimal.eq_or_isDigit_of_head?_text _ hhead with hminus | hdigit
      · cases hminus
      · cases hdigit

/-- The word for a fault is shown exactly for a fault. -/
theorem showOutcome_eq_faultText_iff {o : Outcome} {places : Int} {display : String}
    (h : showOutcome o places = .ok display) :
    display = Readout.faultText ↔ o.fault?.isSome = true := by
  cases o with
  | empty =>
      obtain rfl := Except.ok.inj h
      exact iff_of_false (by decide) (by simp [Outcome.fault?])
  | failure f =>
      obtain rfl := Except.ok.inj h
      exact iff_of_true rfl rfl
  | value x =>
      refine iff_of_false ?_ (by simp [Outcome.fault?])
      rintro rfl
      exact showNumber_ne_faultText x places h

/-! ## What edits come to -/

/-- The text that is built from nothing by edits with the usual limit. -/
def editedFrom (edits : List Edit) : List Char :=
  edits.foldl (fun text edit => editText text edit Entry.defaultLimit) []

theorem editedFrom_concat (edits : List Edit) (edit : Edit) :
    editedFrom (edits ++ [edit]) = editText (editedFrom edits) edit Entry.defaultLimit := by
  rw [editedFrom, List.foldl_append]
  rfl

/-- The edits before the latest evaluation are `before`, and nothing has been reset since. -/
def LatestEvaluation (edits before : List Edit) : Prop :=
  ∃ after, edits = before ++ .evaluate :: after ∧ .evaluate ∉ after ∧ .reset ∉ after

theorem not_latestEvaluation_nil {before : List Edit} : ¬LatestEvaluation [] before := by
  rintro ⟨after, hsplit, -⟩
  simp at hsplit

/-- One more edit is itself the latest evaluation, or it clears that, or it leaves it alone. -/
theorem latestEvaluation_concat {edits before : List Edit} {edit : Edit} :
    LatestEvaluation (edits ++ [edit]) before ↔
      edit = .evaluate ∧ before = edits ∨
        edit ≠ .evaluate ∧ edit ≠ .reset ∧ LatestEvaluation edits before := by
  constructor
  · rintro ⟨after, hsplit, hevaluate, hreset⟩
    rcases List.eq_nil_or_concat after with rfl | ⟨front, last, rfl⟩
    · have hlast : edit = .evaluate := by simpa using List.append_inj_right' hsplit rfl
      exact .inl ⟨hlast, (List.append_inj_left' hsplit rfl).symm⟩
    · -- the last edit stands after the evaluation
      rw [List.concat_eq_append, ← List.cons_append, ← List.append_assoc] at hsplit
      obtain rfl : edit = last := by simpa using List.append_inj_right' hsplit rfl
      rw [List.concat_eq_append, List.mem_append, List.mem_singleton, not_or] at hevaluate hreset
      exact .inr ⟨Ne.symm hevaluate.2, Ne.symm hreset.2, front, List.append_inj_left' hsplit rfl,
        hevaluate.1, hreset.1⟩
  · rintro (⟨rfl, rfl⟩ | ⟨hevaluate, hreset, after, rfl, hevaluates, hresets⟩)
    · exact ⟨[], rfl, List.not_mem_nil, List.not_mem_nil⟩
    · refine ⟨after ++ [edit], by simp, ?_, ?_⟩
      · simpa [hevaluates] using hevaluate.symm
      · simpa [hresets] using hreset.symm

/-- The outcome on show after edits: that of the latest evaluation, or else none. -/
structure IsLatest (edits : List Edit) (outcome : Outcome) : Prop where
  evaluated : ∀ before, LatestEvaluation edits before →
    evaluateEntry (editedFrom before) = .ok outcome
  empty : (∀ before, ¬LatestEvaluation edits before) → outcome = .empty

theorem IsLatest.unique {edits : List Edit} {first second : Outcome} (hfirst : IsLatest edits first)
    (hsecond : IsLatest edits second) : first = second := by
  by_cases h : ∃ before, LatestEvaluation edits before
  · obtain ⟨before, hbefore⟩ := h
    have hsame := (hfirst.evaluated before hbefore).symm.trans (hsecond.evaluated before hbefore)
    exact Except.ok.inj hsame
  · have hnone := fun before hbefore => h ⟨before, hbefore⟩
    rw [hfirst.empty hnone, hsecond.empty hnone]

/-! ## The calculator -/

/-- A usual calculator has the text of the edits and the outcome of the latest evaluation. -/
structure Machine.Records (m : Machine) (edits : List Edit) : Prop where
  entry : m.entry = ⟨editedFrom edits, Entry.defaultLimit⟩
  places : m.places = Readout.defaultPlaces
  latest : IsLatest edits m.last
  sound : ∃ length, m.last.Sound length

namespace Machine

theorem records_default : Machine.default.Records [] where
  entry := rfl
  places := rfl
  latest := ⟨fun _ h => absurd h not_latestEvaluation_nil, fun _ => rfl⟩
  sound := ⟨0, Outcome.sound_empty 0⟩

variable {m : Machine} {edits : List Edit}

theorem Records.unique {m' : Machine} (h : m.Records edits) (h' : m'.Records edits) : m = m' := by
  obtain ⟨entry, places, last⟩ := m
  obtain ⟨entry', places', last'⟩ := m'
  obtain rfl : entry = entry' := h.entry.trans h'.entry.symm
  obtain rfl : places = places' := h.places.trans h'.places.symm
  obtain rfl : last = last' := h.latest.unique h'.latest
  rfl

theorem Records.exists_resultText (h : m.Records edits) :
    ∃ text, m.resultText = .ok text := by
  obtain ⟨length, hsound⟩ := h.sound
  exact hsound.exists_showOutcome m.places

theorem Records.apply (h : m.Records edits) (edit : Edit) :
    m.entry.apply edit = ⟨editedFrom (edits ++ [edit]), Entry.defaultLimit⟩ := by
  have hlimit : (m.entry.apply edit).limit = Entry.defaultLimit := by
    rw [Entry.apply_limit, h.entry]
  rw [editedFrom_concat, editText, ← h.entry, ← hlimit]

/-- An edit that is no command leaves the outcome alone. -/
theorem Records.keep (h : m.Records edits) {edit : Edit} (hevaluate : edit ≠ .evaluate)
    (hreset : edit ≠ .reset) :
    Records { m with entry := m.entry.apply edit } (edits ++ [edit]) where
  entry := h.apply edit
  places := h.places
  latest := by
    have hsame (before : List Edit) :
        LatestEvaluation (edits ++ [edit]) before ↔ LatestEvaluation edits before := by
      simp [latestEvaluation_concat, hevaluate, hreset]
    exact ⟨fun before hbefore => h.latest.evaluated before ((hsame before).1 hbefore),
      fun hnone => h.latest.empty fun before hbefore => hnone before ((hsame before).2 hbefore)⟩
  sound := h.sound

theorem Records.reset (h : m.Records edits) : m.reset.Records (edits ++ [.reset]) where
  entry := h.apply .reset
  places := h.places
  latest := by
    refine ⟨fun before hbefore => ?_, fun _ => rfl⟩
    simp [latestEvaluation_concat] at hbefore
  sound := ⟨0, Outcome.sound_empty 0⟩

theorem Records.evaluate (h : m.Records edits) {outcome : Outcome}
    (houtcome : evaluateEntry m.entry.text = .ok outcome)
    (hsound : ∃ length, outcome.Sound length) :
    Records { m with last := outcome } (edits ++ [.evaluate]) where
  entry := h.apply .evaluate
  places := h.places
  latest := by
    refine ⟨fun before hbefore => ?_, fun hnone => ?_⟩
    · obtain rfl : before = edits := by simpa [latestEvaluation_concat] using hbefore
      rwa [h.entry] at houtcome
    · exact absurd (latestEvaluation_concat.2 (.inl ⟨rfl, rfl⟩)) (hnone edits)
  sound := hsound

/-- Every edit can be made. -/
theorem Records.press (h : m.Records edits) (edit : Edit) :
    ∃ m', m.press (some edit) = .ok m' ∧ m'.Records (edits ++ [edit]) := by
  cases edit with
  | evaluate =>
      obtain ⟨outcome, houtcome, hsound⟩ := exists_sound_evaluateEntry m.entry.text
      refine ⟨{ m with last := outcome }, ?_, h.evaluate houtcome ⟨_, hsound⟩⟩
      rw [Machine.press, houtcome]
      rfl
  | reset => exact ⟨m.reset, rfl, h.reset⟩
  | digits run => exact ⟨_, rfl, h.keep nofun nofun⟩
  | point => exact ⟨_, rfl, h.keep nofun nofun⟩
  | operator symbol => exact ⟨_, rfl, h.keep nofun nofun⟩
  | backspace => exact ⟨_, rfl, h.keep nofun nofun⟩

/-- Every key can be pressed, those that are no edit included. -/
theorem Records.press_key (h : m.Records edits) (key : Option Edit) :
    ∃ m', m.press key = .ok m' ∧ m'.Records (edits ++ key.toList) := by
  cases key with
  | none =>
      rw [Option.toList_none, List.append_nil]
      exact ⟨m, rfl, h⟩
  | some edit => exact h.press edit

end Machine

end DeskCalc
