import DeskCalc.Proofs.Machine
import DeskCalc.Proofs.Window.Settings
import DeskCalc.Window.Step

set_option autoImplicit false

/-! # What a step does to a window

A step switches the theme, presses a key of the calculator, or changes no more than the settings
file and its storage (`perform_cases`). So the calculator of a window is always one that edits have
led to (`Recorded`), whatever the steps have been and whether they failed, and only a switch touches
the setting for dark mode and the theme on show (`theme_perform`).
-/

namespace DeskCalc

namespace Window

variable {w : Window}

/-! ## Opening -/

section Opening

variable {file : Option String} {storage : Settings.Storage}

theorem create_of_darkMode {setting : Json}
    (h : Settings.darkMode storage.depth file = .ok setting) :
    create file storage = .ok ⟨.default, ⟨"", ""⟩, setting, setting.truthy, file, storage⟩ := by
  rw [create, h]
  rfl

theorem create_of_unreadable {failure : Settings.ReadFailure}
    (h : Settings.Unreadable storage.depth file failure) :
    create file storage = .error (.unreadable failure) := by
  rw [create, h.darkMode_eq]

theorem create_of_read {fields : List (String × Json)}
    (h : Settings.read storage.depth file = .ok fields) :
    create file storage = .ok ⟨.default, ⟨"", ""⟩, Settings.darkModeOf fields,
      (Settings.darkModeOf fields).truthy, file, storage⟩ :=
  create_of_darkMode (by rw [Settings.darkMode, h]; rfl)

/-- A window that has been opened shows nothing, in the theme of the file. -/
theorem eq_of_create (h : create file storage = .ok w) :
    Settings.Readable storage.depth file ∧
      ∃ setting, w = ⟨.default, ⟨"", ""⟩, setting, setting.truthy, file, storage⟩ := by
  rcases Settings.readable_or_unreadable storage.depth file with
    hreadable | ⟨failure, hunreadable⟩
  · obtain ⟨fields, hread, -⟩ := hreadable.exists_read storage.depth_pos
    rw [create_of_read hread] at h
    exact ⟨hreadable, _, (Except.ok.inj h).symm⟩
  · rw [create_of_unreadable hunreadable] at h
    cases h

end Opening

/-! ## The display -/

theorem refresh_of_linesOf {lines : Lines} (h : linesOf w.machine = .ok lines) :
    w.refresh = ({ w with lines := lines }, .ok ()) := by
  rw [refresh, h]

/-- To bring the display up to date changes nothing but the display. -/
theorem refresh_eq (w : Window) : ∃ lines, w.refresh.1 = { w with lines := lines } := by
  unfold refresh
  split
  · exact ⟨_, rfl⟩
  · exact ⟨w.lines, rfl⟩

theorem press_none (h : linesOf w.machine = .ok w.lines) : w.press none = (w, .ok ()) :=
  refresh_of_linesOf h

theorem press_some {edit : Edit} {m : Machine} {lines : Lines}
    (hpress : w.machine.press (some edit) = .ok m) (hlines : linesOf m = .ok lines) :
    w.press (some edit) = ({ w with machine := m, lines := lines }, .ok ()) := by
  rw [press, hpress]
  exact refresh_of_linesOf (w := { w with machine := m }) hlines

/-- A key changes nothing but the calculator and the display. -/
theorem press_eq (w : Window) (key : Option Edit) :
    ∃ m lines, (w.press key).1 = { w with machine := m, lines := lines } := by
  unfold press
  split
  · rename_i m _
    obtain ⟨lines, hlines⟩ := refresh_eq { w with machine := m }
    exact ⟨m, lines, hlines⟩
  · exact ⟨w.machine, w.lines, rfl⟩

/-! ## Switching the theme -/

/-- Saving changes nothing but the file. -/
theorem saveSettings_eq {new : List (String × Json)} {left : Option String}
    {result : Except Settings.SaveFailure Unit}
    (h : Settings.save w.storage w.file new = (left, result)) :
    w.saveSettings new = ({ w with file := left }, result.mapError .unwritable) := by
  rw [saveSettings, h]

theorem switchTheme_of_saved {left : Option String}
    (h : Settings.save w.storage w.file [(Settings.darkModeKey, w.flipped)] = (left, .ok ())) :
    w.switchTheme = rebuild { w with darkMode := w.flipped, file := left } := by
  rw [switchTheme, saveSettings_eq (w := { w with darkMode := w.flipped }) h]
  rfl

theorem switchTheme_of_blocked {failure : Settings.SaveFailure} {left : Option String}
    (h : Settings.Blocked w.storage w.file [(Settings.darkModeKey, w.flipped)] failure left) :
    w.switchTheme =
      ({ w with darkMode := w.flipped, file := left }, .error (.unwritable failure)) := by
  rw [switchTheme, saveSettings_eq (w := { w with darkMode := w.flipped }) h.save_eq]
  rfl

/-- A switch finds the settings savable, or it is blocked. -/
theorem savable_or_blocked (w : Window) :
    Settings.Savable w.storage w.file ∨ ∃ failure left,
      Settings.Blocked w.storage w.file [(Settings.darkModeKey, w.flipped)] failure left :=
  Settings.savable_or_blocked w.storage w.file _

/-! ## Buttons -/

theorem lookup_map_self {α : Type} (f : String → α) {label : String} {labels : List String}
    (h : label ∈ labels) : (labels.map fun l => (l, f l)).lookup label = some (f label) := by
  induction labels with
  | nil => cases h
  | cons first rest ih =>
      rw [List.map_cons, List.lookup_cons]
      by_cases heq : label = first
      · rw [heq, beq_self_eq_true]
      · rw [beq_eq_false_iff_ne.2 heq]
        exact ih ((List.mem_cons.1 h).resolve_left heq)

/-- No button of the keypad has the text of the button for the theme. -/
theorem ne_themeGlyph {label : String} (h : label ∈ Keys.rows.flatten) (dark : Bool) :
    label ≠ themeGlyph dark := by
  rintro rfl
  revert h
  cases dark <;> decide

theorem click_label {label : String} (h : label ∈ Keys.rows.flatten) :
    w.click label = w.press (Keys.ofLabel? label) := by
  have hlookup : w.buttons.lookup label = some (.key label) := by
    rw [buttons, List.lookup_cons, beq_eq_false_iff_ne.2 (ne_themeGlyph h w.dark)]
    exact lookup_map_self Action.key h
  rw [click, hlookup]
  rfl

theorem click_themeGlyph : w.click (themeGlyph w.dark) = w.switchTheme := by
  have hlookup : w.buttons.lookup (themeGlyph w.dark) = some .switchTheme := by
    rw [buttons, List.lookup_cons, beq_self_eq_true]
  rw [click, hlookup]
  rfl

/-- No button has any other text. -/
theorem click_of_not_mem {text : String} (htheme : text ≠ themeGlyph w.dark)
    (hlabel : text ∉ Keys.rows.flatten) : w.click text = (w, .error .noSuchButton) := by
  have hnone : w.buttons.lookup text = none := by
    rw [List.lookup_eq_none_iff]
    intro button hbutton
    rcases List.mem_cons.1 hbutton with rfl | hkey
    · exact bne_iff_ne.2 htheme
    · obtain ⟨label, hmem, rfl⟩ := List.mem_map.1 hkey
      refine bne_iff_ne.2 ?_
      rintro rfl
      exact hlabel hmem
  rw [click, hnone]

/-! ## Steps -/

/-- The step is a click on the button for the theme. -/
def isSwitch (w : Window) : Step → Bool
  | .click text => text == themeGlyph w.dark
  | _ => false

/-- A step switches the theme, presses a key, or changes no more than the settings file and its
storage. -/
theorem perform_cases (w : Window) (step : Step) :
    (w.isSwitch step = true ∧ w.perform step = perform.quiet w.switchTheme) ∨
      w.isSwitch step = false ∧
        ((∃ key, (w.perform step).1 = (w.press key).1) ∨
          ∃ file storage, (w.perform step).1 = { w with file := file, storage := storage }) := by
  cases step with
  | click text =>
      by_cases htheme : text = themeGlyph w.dark
      · subst htheme
        exact Or.inl ⟨beq_self_eq_true _, congrArg perform.quiet click_themeGlyph⟩
      · refine Or.inr ⟨beq_eq_false_iff_ne.2 htheme, ?_⟩
        by_cases hlabel : text ∈ Keys.rows.flatten
        · exact Or.inl ⟨_, congrArg Prod.fst (click_label hlabel)⟩
        · exact Or.inr ⟨w.file, w.storage, congrArg Prod.fst (click_of_not_mem htheme hlabel)⟩
  | key typed name =>
      refine Or.inr ⟨rfl, ?_⟩
      show (∃ key, (w.typeKey typed name).1 = _) ∨ ∃ file storage, (w.typeKey typed name).1 = _
      unfold typeKey
      cases Keys.ofKey? typed name with
      | none => exact Or.inr ⟨w.file, w.storage, rfl⟩
      | some edit => exact Or.inl ⟨some edit, rfl⟩
  | write file => exact Or.inr ⟨rfl, Or.inr ⟨file, w.storage, rfl⟩⟩
  | storage storage => exact Or.inr ⟨rfl, Or.inr ⟨w.file, storage, rfl⟩⟩
  | save new =>
      exact Or.inr ⟨rfl, Or.inr ⟨(Settings.save w.storage w.file new).1, w.storage, rfl⟩⟩
  | load | look => exact Or.inr ⟨rfl, Or.inr ⟨w.file, w.storage, rfl⟩⟩

theorem perform_of_isSwitch {step : Step} (h : w.isSwitch step = true) :
    w.perform step = perform.quiet w.switchTheme := by
  rcases w.perform_cases step with ⟨-, hperform⟩ | ⟨hother, -⟩
  · exact hperform
  · rw [h] at hother
    cases hother

/-- The setting and the theme on show are left alone by every step but a switch. -/
theorem theme_perform {step : Step} (h : w.isSwitch step = false) :
    (w.perform step).1.darkMode = w.darkMode ∧ (w.perform step).1.dark = w.dark := by
  rcases w.perform_cases step with ⟨hswitch, -⟩ | ⟨-, ⟨key, hkey⟩ | ⟨file, storage, hfile⟩⟩
  · rw [h] at hswitch
    cases hswitch
  · obtain ⟨m, lines, hpress⟩ := w.press_eq key
    rw [hkey, hpress]
    exact ⟨rfl, rfl⟩
  · rw [hfile]
    exact ⟨rfl, rfl⟩

/-- The window after several steps, whether they fail or not. -/
def afterSteps (w : Window) (steps : List Step) : Window :=
  steps.foldl (fun w step => (w.perform step).1) w

/-! ## The calculator -/

/-- The calculator of the window is one that edits have led to. -/
def Recorded (w : Window) : Prop := ∃ edits, w.machine.Records edits

theorem Recorded.of_machine_eq {w' : Window} (h : w.Recorded)
    (hmachine : w'.machine = w.machine) : w'.Recorded := by
  obtain ⟨edits, hrecords⟩ := h
  refine ⟨edits, ?_⟩
  rwa [hmachine]

theorem Recorded.exists_linesOf (h : w.Recorded) : ∃ lines, linesOf w.machine = .ok lines := by
  obtain ⟨edits, hrecords⟩ := h
  obtain ⟨text, htext⟩ := hrecords.exists_resultText
  exact ⟨⟨w.machine.expression, text⟩, by rw [linesOf, htext]⟩

@[simp] theorem machine_refresh (w : Window) : w.refresh.1.machine = w.machine := by
  obtain ⟨lines, hlines⟩ := w.refresh_eq
  rw [hlines]

@[simp] theorem machine_rebuild (w : Window) : w.rebuild.1.machine = w.machine :=
  machine_refresh _

@[simp] theorem machine_switchTheme (w : Window) : w.switchTheme.1.machine = w.machine := by
  rcases w.savable_or_blocked with hsavable | ⟨failure, left, hblocked⟩
  · obtain ⟨old, hkeeps⟩ := hsavable.exists_keeps
    rw [switchTheme_of_saved (hkeeps.save_eq _), machine_rebuild]
  · rw [switchTheme_of_blocked hblocked]

theorem Recorded.press (h : w.Recorded) (key : Option Edit) : (w.press key).1.Recorded := by
  obtain ⟨edits, hrecords⟩ := h
  obtain ⟨m, hpress, hm⟩ := hrecords.press_key key
  refine ⟨edits ++ key.toList, ?_⟩
  rw [Window.press, hpress, machine_refresh]
  exact hm

/-- Every step leads from a recorded calculator to a recorded one, also if it fails. -/
theorem Recorded.perform (h : w.Recorded) (step : Step) : (w.perform step).1.Recorded := by
  rcases w.perform_cases step with ⟨-, hswitch⟩ | ⟨-, ⟨key, hkey⟩ | ⟨file, storage, hfile⟩⟩
  · rw [hswitch]
    exact h.of_machine_eq (machine_switchTheme w)
  · rw [hkey]
    exact h.press key
  · rw [hfile]
    exact h

theorem Recorded.performAll (h : w.Recorded) (steps : List Step) :
    ∀ done ∈ w.performAll steps, done.1.Recorded := by
  induction steps generalizing w with
  | nil => exact fun done hdone => absurd hdone List.not_mem_nil
  | cons step steps ih =>
      intro done hdone
      rcases List.mem_cons.1 hdone with rfl | hlater
      · exact h.perform step
      · exact ih (h.perform step) done hlater

theorem Recorded.afterSteps (h : w.Recorded) (steps : List Step) :
    (w.afterSteps steps).Recorded := by
  induction steps generalizing w with
  | nil => exact h
  | cons step steps ih => exact ih (h.perform step)

theorem recorded_create {file : Option String} {storage : Settings.Storage}
    (h : create file storage = .ok w) : w.Recorded := by
  obtain ⟨-, setting, rfl⟩ := eq_of_create h
  exact ⟨[], Machine.records_default⟩

end Window

end DeskCalc
