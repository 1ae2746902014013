import DeskCalc.Product
import DeskCalc.Text.Digits

set_option autoImplicit false

/-! # Starting the service

The service is started on its own or by a launcher, which explains itself and what went wrong.
A start is described by the lines it prints, the addresses on which it asks to listen, and how
it ends.
-/

namespace DeskCalc.Service

/-- A request to the host to listen. -/
structure Listen where
  host : String
  tcpPort : Int
  debug : Bool
  deriving DecidableEq, Repr

/-- What happened at a start. The exit code is there only if the program ended itself, and the
failure only if nothing caught it. -/
structure Start where
  lines : List String
  listens : List Listen
  exitCode : Option Nat
  failure : Option String
  deriving DecidableEq, Repr

namespace Start

/-- The rule around the banner. -/
def rule : String := String.ofList (List.replicate 60 '=')

/-- The text of a TCP port. -/
def tcpPortText (tcpPort : Int) : String := String.ofList (Digits.ofInt tcpPort)

/-- The banner of the service. The address in the network is named only if the service listens
on all addresses. -/
def banner (host : String) (tcpPort : Int) : List String :=
  let door := tcpPortText tcpPort
  ["", rule, "PocketCalc API Server", rule,
   "Server starting on http://" ++ host ++ ":" ++ door,
   "Access from this device: http://localhost:" ++ door] ++
  (if host = Product.anyHost then ["Access from network: http://<your-ip>:" ++ door] else []) ++
  [rule, ""]

/-- What the launcher says first. -/
def greeting : List String :=
  ["Starting PocketCalc Web API...",
   "If you encounter permission errors, try running as Administrator",
   ""]

/-- What the launcher says when a part of the service is missing. -/
def missingHelp (error : String) : List String :=
  ["Error importing modules: " ++ error,
   "",
   "Make sure you have installed the required dependencies:",
   "  pip install -e ."]

/-- What the launcher says when the service cannot listen. -/
def listenHelp (error : String) : List String :=
  ["Error starting server: " ++ error,
   "",
   "Troubleshooting:",
   "1. Check if another application is using the port",
   "2. Try running as Administrator",
   "3. Check Windows Firewall settings"]

/-- A start of the service on its own. A refusal to let it listen is not caught. -/
def service (host : String) (tcpPort : Int) (listenError : Option String) : Start :=
  ⟨banner host tcpPort, [⟨host, tcpPort, false⟩], none, listenError⟩

/-- A start by the launcher. -/
def launcher (host : String) (tcpPort : Int) (missing listenError : Option String) : Start :=
  match missing with
  | some error => ⟨greeting ++ missingHelp error, [], some 1, none⟩
  | none =>
      let started := service host tcpPort listenError
      match started.failure with
      | some error =>
          ⟨greeting ++ started.lines ++ listenHelp error, started.listens, some 1, none⟩
      | none => { started with lines := greeting ++ started.lines }

end Start

end DeskCalc.Service
