import DeskCalc.Desktop.Run

set_option autoImplicit false

/-! # The program in a terminal

The desktop program with a terminal for its window: every line of input is a click on the button
with that text, and the two lines of the display are printed after it. A terminal has no child
processes, so the service is never started here, and settings last as long as the session.
-/

namespace DeskCalc.Terminal

/-- The host of a terminal session. -/
def host : Desktop.Host where
  address := none
  socketFails := true
  pid := 0
  startError := some "a terminal has no child processes"
  terminateError := none
  hangs := false

/-- The lines after a click: a failure, or the display. -/
def answerLines : Window × Except Window.Failure Window.Answer → List String
  | (_, .error failure) => [failure.message]
  | (w, .ok _) => [w.lines.expression, w.lines.result]

/-- Clicks until the input ends. -/
partial def loop (input : IO.FS.Stream) (w : Window) : IO Unit := do
  let line ← input.getLine
  if line.isEmpty then return
  let done := w.perform (.click (String.ofList (trimBlanks line.toList)))
  (answerLines done).forM IO.println
  loop input done.1

/-- A session with the given command-line arguments. -/
def session (arguments : List String) : IO Unit := do
  if Desktop.wantsService arguments then
    (Desktop.startService host none).2.lines.forM IO.println
  match Window.create none with
  | .ok w => loop (← IO.getStdin) w
  | .error failure => IO.println failure.message

end DeskCalc.Terminal

/-- The desktop program. -/
def main (arguments : List String) : IO Unit := DeskCalc.Terminal.session arguments
