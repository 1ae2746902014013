import Mathlib.Data.List.Induction
import DeskCalc.Proofs.Window.Steps

set_option autoImplicit false

/-! # What a user does with a window

A user clicks on a button of the keypad, types a key or clicks on the button for the theme. Every
input is an edit, a switch of the theme, or neither. After any inputs the calculator is determined
by the edits, and the theme and the settings file by the number of switches; `Follows` says how,
and `Follows.handle` that the next input keeps it so and does not fail.
-/

namespace DeskCalc

namespace Window

/-! ## Inputs -/

/-- What a user does: a click on a button of the keypad, a key of the keyboard, or a click on the
button for the theme. -/
inductive Input where
  | button (label : String) (known : label ∈ Keys.rows.flatten)
  | key (typed : Option String) (name : String)
  | theme

namespace Input

/-- The edit that an input stands for, if it is one. -/
def edit? : Input → Option Edit
  | .button label _ => Keys.ofLabel? label
  | .key typed name => Keys.ofKey? typed name
  | .theme => none

/-- The input switches the theme. -/
def isTheme : Input → Bool
  | .theme => true
  | _ => false

/-- The input as a step: buttons are known by their texts, that for the theme by the one on
show. -/
def step (w : Window) : Input → Step
  | .button label _ => .click label
  | .key typed name => .key typed name
  | .theme => .click (themeGlyph w.dark)

end Input

/-- The edits among inputs. -/
def edits (inputs : List Input) : List Edit := inputs.filterMap Input.edit?

/-- The number of switches among inputs. -/
def switches (inputs : List Input) : Nat := inputs.countP Input.isTheme

/-- The window after an input, and the answer to it. -/
def handle (w : Window) (input : Input) : Window × Except Failure Answer :=
  w.perform (input.step w)

/-- The window after several inputs. -/
def after (w : Window) (inputs : List Input) : Window :=
  inputs.foldl (fun w input => (w.handle input).1) w

theorem after_concat (w : Window) (inputs : List Input) (input : Input) :
    w.after (inputs ++ [input]) = ((w.after inputs).handle input).1 := by
  rw [after, List.foldl_append]
  rfl

variable {w : Window}

theorem edits_concat (inputs : List Input) (input : Input) :
    edits (inputs ++ [input]) = edits inputs ++ input.edit?.toList := by
  rw [edits, List.filterMap_append, edits]
  cases h : input.edit? <;> simp [h]

theorem switches_concat (inputs : List Input) (input : Input) :
    switches (inputs ++ [input]) = switches inputs + if input.isTheme then 1 else 0 := by
  rw [switches, List.countP_append, List.countP_singleton, switches]

/-! ## Steps -/

/-- Every input but the switch presses its edit, if it is one. -/
theorem handle_of_not_isTheme (hlines : linesOf w.machine = .ok w.lines) {input : Input}
    (h : input.isTheme = false) : w.handle input = perform.quiet (w.press input.edit?) := by
  cases input with
  | button label known =>
      show perform.quiet (w.click label) = _
      rw [click_label known]
      rfl
  | key typed name =>
      show perform.quiet (w.typeKey typed name) = _
      rw [typeKey, Input.edit?]
      cases Keys.ofKey? typed name with
      | none =>
          -- a key that is not bound is not handled, which is the same as being handled in vain
          rw [press_none hlines]
      | some edit => rfl
  | theme => cases h

theorem handle_theme : w.handle .theme = perform.quiet w.switchTheme :=
  congrArg perform.quiet click_themeGlyph

/-! ## The window after inputs -/

/-- The window is the one that edits and a number of switches lead to, beside the file that held
the given fields. -/
structure Follows (storage : Settings.Storage) (file : Option String)
    (fields : List (String × Json)) (edits : List Edit) (switches : Nat) (w : Window) : Prop where
  machine : w.machine.Records edits
  lines : linesOf w.machine = .ok w.lines
  setting : w.darkMode = Settings.settingAfter fields switches
  dark : w.dark = Settings.darkAfter fields switches
  file : w.file = Settings.fileAfter file fields switches
  storage : w.storage = storage

section Follows

variable {storage : Settings.Storage} {file : Option String} {fields : List (String × Json)}
  {edits : List Edit} {n : Nat}

/-- A window opens beside every file that can be read. -/
theorem exists_follows_create (h : Settings.read storage.depth file = .ok fields) :
    ∃ w, create file storage = .ok w ∧ Follows storage file fields [] 0 w := by
  have hdark := Settings.truthy_settingAfter fields 0
  exact ⟨_, create_of_read h, Machine.records_default, rfl, rfl, hdark, rfl, rfl⟩

theorem Follows.truthy (h : Follows storage file fields edits n w) :
    w.darkMode.truthy = w.dark := by
  rw [h.setting, h.dark, Settings.truthy_settingAfter]

/-- The lines are determined by the edits. -/
theorem Follows.lines_unique {w' : Window} {n' : Nat} (h : Follows storage file fields edits n w)
    (h' : Follows storage file fields edits n' w') : w.lines = w'.lines := by
  have hlines := h'.lines
  rw [← h.machine.unique h'.machine] at hlines
  exact Except.ok.inj (h.lines.symm.trans hlines)

/-- A key is pressed without failure, and the theme stays as it is. -/
theorem Follows.press (h : Follows storage file fields edits n w) (key : Option Edit) :
    ∃ next, w.press key = (next, .ok ()) ∧
      Follows storage file fields (edits ++ key.toList) n next := by
  cases key with
  | none =>
      rw [Option.toList_none, List.append_nil]
      exact ⟨w, press_none h.lines, h⟩
  | some edit =>
      obtain ⟨m, hpress, hrecords⟩ := h.machine.press edit
      obtain ⟨text, htext⟩ := hrecords.exists_resultText
      have hlines : linesOf m = .ok ⟨m.expression, text⟩ := by
        rw [linesOf, htext]
      refine ⟨{ w with machine := m, lines := ⟨m.expression, text⟩ }, press_some hpress hlines, ?_⟩
      exact ⟨hrecords, hlines, h.setting, h.dark, h.file, h.storage⟩

/-- The theme is switched without failure, and the calculator stays as it is. -/
theorem Follows.switchTheme (h : Follows storage file fields edits n w)
    (hkeeps : Settings.Keeps storage file fields) :
    ∃ next, w.switchTheme = (next, .ok ()) ∧ Follows storage file fields edits (n + 1) next := by
  have hflipped : w.flipped = .bool (Settings.darkAfter fields (n + 1)) := by
    rw [flipped, h.truthy, h.dark, Settings.darkAfter_succ]
  have hsave := hkeeps.save_fileAfter n
  rw [← Settings.darkAfter_succ, ← hflipped, ← h.file, ← h.storage] at hsave
  let next : Window :=
    { w with
      darkMode := .bool (Settings.darkAfter fields (n + 1))
      dark := Settings.darkAfter fields (n + 1)
      file := Settings.fileAfter file fields (n + 1) }
  have hswitch : w.switchTheme = next.refresh := by
    rw [switchTheme_of_saved hsave, hflipped]
    rfl
  have hnext : next.refresh = (next, .ok ()) := refresh_of_linesOf (w := next) h.lines
  refine ⟨next, hswitch.trans hnext, h.machine, h.lines, ?_, rfl, rfl, h.storage⟩
  exact (if_neg (Nat.succ_ne_zero n)).symm

end Follows

variable {storage : Settings.Storage} {file : Option String} {fields : List (String × Json)}
  {inputs : List Input}

/-- The next input does not fail, and the window follows it. -/
theorem Follows.handle (h : Follows storage file fields (edits inputs) (switches inputs) w)
    (hkeeps : Settings.Keeps storage file fields) (input : Input) :
    ∃ next, w.handle input = (next, .ok .nothing) ∧
      Follows storage file fields (edits (inputs ++ [input])) (switches (inputs ++ [input]))
        next := by
  rw [edits_concat, switches_concat]
  cases htheme : input.isTheme with
  | false =>
      obtain ⟨next, hpress, hnext⟩ := h.press input.edit?
      refine ⟨next, ?_, hnext⟩
      rw [handle_of_not_isTheme h.lines htheme, hpress]
      rfl
  | true =>
      obtain rfl : input = .theme := by
        cases input with
        | theme => rfl
        | button | key => cases htheme
      obtain ⟨next, hswitch, hnext⟩ := h.switchTheme hkeeps
      refine ⟨next, ?_, ?_⟩
      · rw [handle_theme, hswitch]
        rfl
      · rw [if_pos rfl, Input.edit?, Option.toList_none, List.append_nil]
        exact hnext

/-- The window after inputs is the one that their edits and switches lead to. -/
theorem Follows.after (h : Follows storage file fields [] 0 w)
    (hkeeps : Settings.Keeps storage file fields) (inputs : List Input) :
    Follows storage file fields (edits inputs) (switches inputs) (w.after inputs) := by
  induction inputs using List.reverseRecOn with
  | nil => exact h
  | append_singleton inputs input ih =>
      obtain ⟨next, hhandle, hnext⟩ := ih.handle hkeeps input
      rw [after_concat, hhandle]
      exact hnext

end Window

end DeskCalc
