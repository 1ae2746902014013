import DeskCalc.Window.View

set_option autoImplicit false

/-! # A session with a window

The steps that a user, the window's own functions, other programs and the host take with an open
window, and what each one answers. A session goes on after a step that fails.
-/

namespace DeskCalc.Window

/-- One step. -/
inductive Step where
  /-- A click on the first button with this text. -/
  | click (text : String)
  /-- A key of the keyboard. -/
  | key (typed : Option String) (name : String)
  /-- Another program replaces the settings file, or removes it. -/
  | write (file : Option String)
  /-- The host reads and writes the settings file in another way. -/
  | storage (storage : Settings.Storage)
  /-- The settings are read. -/
  | load
  /-- Settings are saved. -/
  | save (fields : List (String × Json))
  /-- The widgets are looked at. -/
  | look

/-- What a step answers. -/
inductive Answer where
  | nothing
  | settings (document : Json)
  | widgets (tree : Widget)

/-- A step and its answer. -/
def perform (w : Window) : Step → Window × Except Failure Answer
  | .click text => quiet (w.click text)
  | .key typed name => quiet (w.typeKey typed name)
  | .write file => ({ w with file := file }, .ok .nothing)
  | .storage storage => ({ w with storage := storage }, .ok .nothing)
  | .load =>
      (w, ((Settings.load w.storage.depth w.file).mapError .unreadable).map .settings)
  | .save fields => quiet (w.saveSettings fields)
  | .look => (w, .ok (.widgets w.view))
where
  quiet : Window × Except Failure Unit → Window × Except Failure Answer
    | (next, result) => (next, result.map fun _ => .nothing)

/-- The windows and answers after each of several steps. -/
def performAll (w : Window) : List Step → List (Window × Except Failure Answer)
  | [] => []
  | step :: steps =>
      let done := w.perform step
      done :: performAll done.1 steps

end DeskCalc.Window
