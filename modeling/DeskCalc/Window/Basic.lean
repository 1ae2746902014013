import DeskCalc.Keys
import DeskCalc.Machine
import DeskCalc.Product
import DeskCalc.Window.Settings

set_option autoImplicit false

/-! # The window

One calculator behind a keypad, with an expression line and a result line, in a light or a dark
theme. The theme is kept in a settings file, which other programs may change at any time, as the
host may change the way in which it is read and written. The setting may be any JSON value and
counts by its truth; the first switch makes it a boolean.

What a step did before it failed stays done. So every step gives the window after it together
with the failure, if there was one.
-/

namespace DeskCalc

/-- What the two lines of the display show. -/
structure Lines where
  expression : String
  result : String
  deriving DecidableEq, Repr

/-- A window, and beside it the settings file and how the host reads and writes it. -/
structure Window where
  machine : Machine
  lines : Lines
  /-- The setting for dark mode. -/
  darkMode : Json
  /-- The widgets on show were built in dark mode. -/
  dark : Bool
  /-- The text of the settings file; `none` is a file that is missing or cannot be opened. -/
  file : Option String
  storage : Settings.Storage

namespace Window

/-! ## Failures -/

/-- Why a step fails. -/
inductive Failure where
  /-- The calculator gave no answer. -/
  | calculator (breakdown : Breakdown)
  /-- No settings are found in the file. -/
  | unreadable (failure : Settings.ReadFailure)
  /-- Settings are not saved into the file. -/
  | unwritable (failure : Settings.SaveFailure)
  /-- No button has the text that was clicked. -/
  | noSuchButton

/-- The wording of a failure. -/
def Failure.message : Failure → String
  | .calculator b => b.message
  | .unreadable failure => failure.message "get"
  | .unwritable failure => failure.message
  | .noSuchButton => "no such button"

/-! ## The display -/

/-- The lines that show a calculator. -/
def linesOf (m : Machine) : Except Failure Lines :=
  match m.resultText with
  | .ok result => .ok ⟨m.expression, result⟩
  | .error b => .error (.calculator b)

/-- The window with its lines brought up to date. -/
def refresh (w : Window) : Window × Except Failure Unit :=
  match linesOf w.machine with
  | .ok lines => ({ w with lines := lines }, .ok ())
  | .error f => (w, .error f)

/-- The palette of the widgets on show. -/
def palette (w : Window) : Palette := .ofDark w.dark

/-- The colour of the result line. -/
def resultColour (w : Window) : String :=
  if w.lines.result = Readout.faultText then w.palette.danger else w.palette.displayText

/-- The widgets are built anew, in the theme of the setting. -/
def rebuild (w : Window) : Window × Except Failure Unit :=
  refresh { w with dark := w.darkMode.truthy }

/-- A new window beside a settings file. -/
def create (file : Option String) (storage : Settings.Storage := .ordinary) :
    Except Failure Window :=
  match Settings.darkMode storage.depth file with
  | .error failure => .error (.unreadable failure)
  | .ok setting =>
      match rebuild ⟨.default, ⟨"", ""⟩, setting, false, file, storage⟩ with
      | (w, .ok ()) => .ok w
      | (_, .error f) => .error f

/-! ## Keys and buttons -/

/-- The calculator after a key, and the display after that. A key that is no edit changes
nothing. -/
def press (w : Window) (edit : Option Edit) : Window × Except Failure Unit :=
  match w.machine.press edit with
  | .ok m => refresh { w with machine := m }
  | .error b => (w, .error (.calculator b))

/-- A key of the keyboard; one that is not bound is not handled at all. -/
def typeKey (w : Window) (typed : Option String) (name : String) :
    Window × Except Failure Unit :=
  match Keys.ofKey? typed name with
  | some edit => w.press (some edit)
  | none => (w, .ok ())

/-- Settings are saved into the file. -/
def saveSettings (w : Window) (new : List (String × Json)) : Window × Except Failure Unit :=
  let (file, result) := Settings.save w.storage w.file new
  ({ w with file := file }, result.mapError .unwritable)

/-- The setting for dark mode after a switch. -/
def flipped (w : Window) : Json := .bool (!w.darkMode.truthy)

/-- The theme is switched: first the setting, then the file, then the widgets. -/
def switchTheme (w : Window) : Window × Except Failure Unit :=
  -- if saving fails, the setting is switched and the widgets are not; the file may be cut short
  match saveSettings { w with darkMode := w.flipped } [(Settings.darkModeKey, w.flipped)] with
  | (saved, .ok ()) => saved.rebuild
  | failed => failed

/-- What a button does. -/
inductive Action where
  | switchTheme
  | key (label : String)
  deriving DecidableEq, Repr

/-- The text of the button that switches the theme: a moon in light mode, a sun in dark mode. -/
def themeGlyph (dark : Bool) : String := if dark then "☀" else "☾"

/-- The buttons in the order in which the window holds them. -/
def buttons (w : Window) : List (String × Action) :=
  (themeGlyph w.dark, .switchTheme) :: Keys.rows.flatten.map fun label => (label, .key label)

/-- What a button does to the window. -/
def act (w : Window) : Action → Window × Except Failure Unit
  | .switchTheme => w.switchTheme
  | .key label => w.press (Keys.ofLabel? label)

/-- A click on the first button with the given text. -/
def click (w : Window) (text : String) : Window × Except Failure Unit :=
  match w.buttons.lookup text with
  | some action => w.act action
  | none => (w, .error .noSuchButton)

end Window

end DeskCalc
