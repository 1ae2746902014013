import DeskCalc.Proofs.Window.Inputs

set_option autoImplicit false

/-! # What the display shows during a session

The widgets are built anew at every switch of the theme, and the result line stays on show while
the expression is edited. The display nevertheless depends on the edits alone: the expression line
shows the text of all edits, and the result line the outcome of the latest evaluation, in the
colour for faults if that is a fault (`display_of_inputs`). Switches do not show in the lines, and
edits do not show in the settings.
-/

namespace DeskCalc

theorem Palette.danger_ne_displayText (isDark : Bool) :
    (Palette.ofDark isDark).danger ≠ (Palette.ofDark isDark).displayText := by
  cases isDark <;> decide

namespace Window

/-- The result line shows an outcome, a fault in the colour for faults and anything else in the
colour of the display. -/
structure ShowsOutcome (w : Window) (outcome : Outcome) : Prop where
  result : showOutcome outcome Readout.defaultPlaces = .ok w.lines.result
  danger : w.resultColour = w.palette.danger ↔ ∃ fault, outcome = .failure fault
  displayText : (∀ fault, outcome ≠ .failure fault) → w.resultColour = w.palette.displayText

/-- The display shows edits in the theme of the setting. -/
structure Displays (w : Window) (edits : List Edit) : Prop where
  /-- The expression line shows the text of the edits. -/
  expression : w.lines.expression = String.ofList (editedFrom edits)
  /-- The result line is empty when nothing has been evaluated since the last reset. -/
  blank : (∀ before, ¬LatestEvaluation edits before) →
    w.lines.result = "" ∧ w.resultColour = w.palette.displayText
  /-- The result line shows what the expression was worth at the latest evaluation. -/
  outcome : ∀ before, LatestEvaluation edits before →
    ∃ outcome, evaluateEntry (editedFrom before) = .ok outcome ∧ w.ShowsOutcome outcome
  theme : w.palette = .ofDark w.darkMode.truthy

variable {w : Window} {storage : Settings.Storage} {file : Option String}
  {fields : List (String × Json)}

theorem showsOutcome_of_linesOf (hplaces : w.machine.places = Readout.defaultPlaces)
    (hlines : linesOf w.machine = .ok w.lines) : w.ShowsOutcome w.machine.last := by
  have hresult : showOutcome w.machine.last Readout.defaultPlaces = .ok w.lines.result := by
    rw [← hplaces]
    unfold linesOf at hlines
    cases htext : w.machine.resultText with
    | error b =>
        rw [htext] at hlines
        cases hlines
    | ok text =>
        rw [htext] at hlines
        have hline : text = w.lines.result := congrArg Lines.result (Except.ok.inj hlines)
        rwa [← hline]
  have hfault := showOutcome_eq_faultText_iff hresult
  have hne := Palette.danger_ne_displayText w.dark
  cases hlast : w.machine.last with
  | failure fault =>
      rw [hlast] at hresult hfault
      refine ⟨hresult, iff_of_true ?_ ⟨fault, rfl⟩, fun h => absurd rfl (h fault)⟩
      rw [resultColour, if_pos (hfault.2 rfl)]
  | empty | value =>
      rw [hlast] at hresult hfault
      have hcolour : w.resultColour = w.palette.displayText := by
        rw [resultColour, if_neg fun htext => Bool.false_ne_true (hfault.1 htext)]
      refine ⟨hresult, iff_of_false ?_ (by simp), fun _ => hcolour⟩
      rw [hcolour]
      exact hne.symm

theorem Follows.displays {edits : List Edit} {n : Nat}
    (h : Follows storage file fields edits n w) : w.Displays edits := by
  have hshows := showsOutcome_of_linesOf h.machine.places h.lines
  refine ⟨?_, fun hnone => ?_, fun before hbefore => ?_, ?_⟩
  · have hlines := h.lines
    obtain ⟨text, htext⟩ := h.machine.exists_resultText
    rw [linesOf, htext] at hlines
    rw [← Except.ok.inj hlines]
    show String.ofList w.machine.entry.text = _
    rw [h.machine.entry]
  · rw [h.machine.latest.empty hnone] at hshows
    exact ⟨(Except.ok.inj hshows.result).symm, hshows.displayText fun _ h => by cases h⟩
  · exact ⟨w.machine.last, h.machine.latest.evaluated before hbefore, hshows⟩
  · rw [h.truthy, palette]

/-! ## Leaving inputs out -/

theorem edits_filter_not_isTheme (inputs : List Input) :
    edits (inputs.filter fun input => !input.isTheme) = edits inputs := by
  have hskip : (fun input : Input => if !input.isTheme then input.edit? else none) =
      Input.edit? := by
    funext input
    cases input <;> rfl
  rw [edits, List.filterMap_filter, hskip, edits]

theorem switches_filter_isTheme (inputs : List Input) :
    switches (inputs.filter Input.isTheme) = switches inputs := by
  rw [switches, List.countP_filter, switches]
  simp

/-- **What the display shows.** Beside a file that is missing, malformed or an object and can be
written, a window opens and no input fails. After any inputs the expression line shows the text of
the edits among them. The result line is empty if nothing has been evaluated since the last reset.
Otherwise it shows the outcome of the expression as it was at the latest evaluation, in the danger
colour of the theme on show exactly if that is a fault. The lines are the same without the switches
of the theme, and the setting and the file are the same without all other inputs. -/
theorem display_of_inputs (hfile : Settings.Savable storage file) :
    ∃ w, create file storage = .ok w ∧
      ∀ inputs : List Input,
        (∀ input, ((w.after inputs).handle input).2 = .ok .nothing) ∧
        (w.after inputs).Displays (edits inputs) ∧
        (w.after (inputs.filter fun input => !input.isTheme)).lines = (w.after inputs).lines ∧
        (w.after (inputs.filter Input.isTheme)).darkMode = (w.after inputs).darkMode ∧
        (w.after (inputs.filter Input.isTheme)).file = (w.after inputs).file := by
  obtain ⟨fields, hkeeps⟩ := hfile.exists_keeps
  obtain ⟨w, hcreate, hw⟩ := exists_follows_create hkeeps.read
  refine ⟨w, hcreate, fun inputs => ?_⟩
  have hall := hw.after hkeeps inputs
  have hcalculator := hw.after hkeeps (inputs.filter fun input => !input.isTheme)
  have htheme := hw.after hkeeps (inputs.filter Input.isTheme)
  rw [edits_filter_not_isTheme] at hcalculator
  rw [switches_filter_isTheme] at htheme
  refine ⟨fun input => ?_, hall.displays, hcalculator.lines_unique hall,
    htheme.setting.trans hall.setting.symm, htheme.file.trans hall.file.symm⟩
  obtain ⟨next, hnext, -⟩ := hall.handle hkeeps input
  rw [hnext]

/-- The word for the fault of a lone sign stays on show, in its colour, while the theme is switched
and the expression is edited. -/
theorem display_of_inputs_stale :
    ∃ w inputs, create none = .ok w ∧
      inputs = [.button "-" (by decide), .key none "Return", .theme, .key (some "5") "5"] ∧
      (w.after inputs).lines = ⟨"-5", "Error"⟩ ∧
      (w.after inputs).resultColour = (w.after inputs).palette.danger := by
  have hfile : Settings.Savable .ordinary none := ⟨.missing, rfl⟩
  obtain ⟨w, hcreate, hw⟩ := display_of_inputs hfile
  refine ⟨w, _, hcreate, rfl, ?_⟩
  obtain ⟨-, hdisplays, -⟩ :=
    hw [.button "-" (by decide), .key none "Return", .theme, .key (some "5") "5"]
  have hedits : edits [.button "-" (by decide), .key none "Return", .theme, .key (some "5") "5"] =
      [.operator "-", .evaluate, .digits "5"] := by decide
  have hlatest : LatestEvaluation [.operator "-", .evaluate, .digits "5"] [.operator "-"] :=
    ⟨[.digits "5"], rfl, by decide, by decide⟩
  rw [hedits] at hdisplays
  obtain ⟨outcome, houtcome, hshows⟩ := hdisplays.outcome _ hlatest
  obtain rfl : .failure .noOperands = outcome := Except.ok.inj houtcome
  have hlines (v : Window) {expression result : String} (he : v.lines.expression = expression)
      (hr : v.lines.result = result) : v.lines = ⟨expression, result⟩ := by
    rw [← he, ← hr]
  have hexpression := hdisplays.expression.trans (by decide : _ = "-5")
  have hresult := (Except.ok.inj hshows.result).symm
  exact ⟨hlines _ hexpression hresult, hshows.danger.2 ⟨_, rfl⟩⟩

end Window

end DeskCalc
