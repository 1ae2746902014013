import DeskCalc.Product
import DeskCalc.Service.Endpoint
import DeskCalc.Service.Startup
import DeskCalc.Window.Step

set_option autoImplicit false

/-! # A run of the desktop program

The program starts the service as a child, unless it is told not to, opens the window, lets it
take over, and stops the child when the window is closed. If the window cannot be opened the
program ends at once. A stop that was registered when the child was started is made at the very
end in any case, so no child is left behind.
-/

namespace DeskCalc.Desktop

/-! ## The host

The operating system, as far as the desktop program asks anything of it: how it answers
(`Host`), what is asked (`Event`), and what the program prints meanwhile. The lines and events
of a piece of a run are its `Trace`.
-/

/-- How a host answers. An error is the text that the host gives for it. -/
structure Host where
  /-- The address of the host in its network; without one, no route is found. -/
  address : Option String
  /-- No socket can be had. -/
  socketFails : Bool
  /-- The number of the next child process. -/
  pid : Int
  /-- Starting a child fails. -/
  startError : Option String
  /-- Telling a child to end fails. -/
  terminateError : Option String
  /-- A child that was told to end does not do so in time. -/
  hangs : Bool
  /-- The error of waiting for such a child, which names the command of the child. -/
  timeoutText : String := "Command 'api' timed out after 5 seconds"
  /-- How the settings file is read and written. -/
  storage : Settings.Storage := .ordinary
  deriving Repr

/-- What is asked of the host, and the marks of the program's own stages. -/
inductive Event where
  /-- A route to this address and TCP port is looked up. -/
  | route (address : String) (tcpPort : Nat)
  /-- The service is started as a child process; its output and its errors may be thrown
  away. -/
  | startService (dropOutput dropErrors : Bool)
  /-- A child is told to end. -/
  | terminate (pid : Int)
  /-- The end of a child is waited for. -/
  | wait (pid : Int) (seconds : Nat)
  /-- The window takes over. -/
  | windowLoop
  /-- The program has ended. -/
  | exit
  /-- The stop that was registered for the exit is made. -/
  | stopAtExit
  deriving DecidableEq, Repr

/-- The lines printed and the events of a piece of a run, each in order. -/
structure Trace where
  lines : List String
  events : List Event
  deriving Repr

namespace Trace

/-- Nothing happened. -/
def empty : Trace := ⟨[], []⟩

/-- One piece after another. -/
def append (first second : Trace) : Trace :=
  ⟨first.lines ++ second.lines, first.events ++ second.events⟩

instance : Append Trace := ⟨append⟩

@[simp] theorem lines_append (first second : Trace) :
    (first ++ second).lines = first.lines ++ second.lines := rfl

@[simp] theorem events_append (first second : Trace) :
    (first ++ second).events = first.events ++ second.events := rfl

end Trace

/-! ## The service as a child

The desktop program may run the service in a child process. It holds the number of one child
at most; starting another one while it holds a child forgets the first.
-/

/-! ### The address in the network -/

/-- The address to which a route is looked up, in order to learn the host's own. -/
def probeAddress : String := "10.255.255.255"

/-- The TCP port to which a route is looked up. -/
def probePort : Nat := 1

/-- The address at which a host reaches itself. -/
def loopback : String := "127.0.0.1"

/-- The host's address in its network, or else the loopback. -/
def lanAddress (host : Host) : String × Trace :=
  if host.socketFails then (loopback, .empty)
  else (host.address.getD loopback, ⟨[], [.route probeAddress probePort]⟩)

/-! ### Start -/

/-- The line that says a child runs. -/
def startedLine (pid : Int) : String :=
  "API server started (PID: " ++ String.ofList (Digits.ofInt pid) ++ ")"

/-- The lines that say where a service at an address can be used. -/
def endpointLines (address : String) : List String :=
  [Service.Endpoint.edit, .evaluate, .press].map fun endpoint =>
    "  POST http://" ++ address ++ ":" ++ Service.Start.tcpPortText Product.tcpPort ++ endpoint.path

/-- The line that says no child could be started. -/
def startFailedLine (error : String) : String := "Failed to start API server: " ++ error

/-- The service is started; the program holds the new child, or else the child it held. -/
def startService (host : Host) (child : Option Int) : Option Int × Trace :=
  let asked : Trace := ⟨[], [.startService true true]⟩
  match host.startError with
  | some error => (child, asked ++ ⟨[startFailedLine error], []⟩)
  | none =>
      let (address, probed) := lanAddress host
      (some host.pid, asked ++ probed ++ ⟨startedLine host.pid :: endpointLines address, []⟩)

/-! ### Stop -/

/-- The seconds for which the end of a child is waited for. -/
def patience : Nat := 5

/-- The line that says a child has ended. -/
def stoppedLine : String := "API server stopped"

/-- The line that says a child could not be ended. -/
def stopFailedLine (error : String) : String := "Error stopping API server: " ++ error

/-- The child, if there is one, is told to end and its end is waited for. Afterwards no child
is held, whether that went well or not. -/
def stopService (host : Host) : Option Int → Option Int × Trace
  | none => (none, .empty)
  | some pid =>
      match host.terminateError with
      | some error => (none, ⟨[stopFailedLine error], [.terminate pid]⟩)
      | none =>
          let line := if host.hangs then stopFailedLine host.timeoutText else stoppedLine
          (none, ⟨[line], [.terminate pid, .wait pid patience]⟩)

/-! ## Runs -/

/-- The argument that keeps the service from being started. -/
def noServiceFlag : String := "--no-api"

/-- The service is wanted unless one of the arguments is the flag. -/
def wantsService (arguments : List String) : Bool := !arguments.contains noServiceFlag

/-- A run of the program. -/
structure Run where
  trace : Trace
  /-- The window and the answer after each step with it. -/
  steps : List (Window × Except Window.Failure Window.Answer)
  /-- The failure that ended the program. -/
  failure : Option Window.Failure
  /-- The child that is held at the very end. -/
  child : Option Int

/-- The part of a run from the window's opening to its closing. -/
def runWindow (host : Host) (file : Option String) (steps : List Window.Step)
    (child : Option Int) : Run :=
  match Window.create file host.storage with
  | .error failure => ⟨.empty, [], some failure, child⟩
  | .ok w =>
      let (held, stopped) := stopService host child
      ⟨⟨[], [.windowLoop]⟩ ++ stopped, w.performAll steps, none, held⟩

/-- The part of a run after the program has ended, with a registered stop or without. -/
def runExit (host : Host) (registered : Bool) (child : Option Int) : Option Int × Trace :=
  if registered then
    let (held, stopped) := stopService host child
    (held, ⟨[], [.exit, .stopAtExit]⟩ ++ stopped)
  else
    (child, ⟨[], [.exit]⟩)

/-- A run with the given arguments, host, settings file and steps with the window. -/
def run (arguments : List String) (host : Host) (file : Option String)
    (steps : List Window.Step) : Run :=
  let service := wantsService arguments
  let (child, started) := if service then startService host none else (none, .empty)
  let session := runWindow host file steps child
  let (left, ended) := runExit host service session.child
  { session with trace := started ++ session.trace ++ ended, child := left }

end DeskCalc.Desktop
