import DeskCalc.Desktop.Run

set_option autoImplicit false

/-! # No child is left behind

A run of the desktop program stops its child at two places: when the window is closed, and at the
very end. The first is left out if the window cannot be opened, and the second finds no child if
the first was made. Starting and stopping may each fail.

All this is counted by what is *owed* to a child that is held: that it is told to end, and that one
line says how this went. A piece of a run that begins with one child in hand and ends with another
or none settles the difference (`Settles`). Pieces that settle follow one another
(`Settles.append`), so it is enough to look at each of them. At the end of a run no child is held,
so whatever was owed has been done, and no more than that.
-/

namespace DeskCalc.Desktop

/-! ## What is told about a child -/

/-- The event begins the life of a child or is to end it. -/
def Event.isLifecycle : Event → Bool
  | .startService _ _ => true
  | .terminate _ => true
  | _ => false

/-- The line says how the stop of a child went. -/
def isVerdict (line : String) : Bool :=
  line == stoppedLine || (stopFailedLine "").toList.isPrefixOf line.toList

namespace Trace

/-- The events in the life of children. -/
def lifecycle (t : Trace) : List Event := t.events.filter (·.isLifecycle)

/-- The lines that say how stops went. -/
def verdicts (t : Trace) : List String := t.lines.filter isVerdict

@[simp] theorem lifecycle_append (first second : Trace) :
    (first ++ second).lifecycle = first.lifecycle ++ second.lifecycle := by
  simp [lifecycle]

@[simp] theorem verdicts_append (first second : Trace) :
    (first ++ second).verdicts = first.verdicts ++ second.verdicts := by
  simp [verdicts]

theorem append_assoc (first second third : Trace) :
    first ++ second ++ third = first ++ (second ++ third) := by
  show Trace.mk _ _ = Trace.mk _ _
  simp only [lines_append, events_append, List.append_assoc]

end Trace

theorem toList_stopFailedLine (error : String) :
    (stopFailedLine error).toList = "Error stopping API server: ".toList ++ error.toList :=
  String.toList_append

theorem isVerdict_stoppedLine : isVerdict stoppedLine = true := by
  simp [isVerdict]

theorem isVerdict_stopFailedLine (error : String) : isVerdict (stopFailedLine error) = true := by
  unfold isVerdict
  rw [toList_stopFailedLine, toList_stopFailedLine]
  simp

/-- Both lines can be told by their first fourteen characters. -/
theorem take_of_isVerdict {line : String} (h : isVerdict line = true) :
    line.toList.take 14 = "API server sto".toList ∨
      line.toList.take 14 = "Error stopping".toList := by
  rcases Bool.or_eq_true _ _ ▸ h with hstopped | hfailed
  · rw [eq_of_beq hstopped]
    exact Or.inl rfl
  · rw [List.isPrefixOf_iff_prefix] at hfailed
    obtain ⟨error, hline⟩ := hfailed
    rw [← hline]
    exact Or.inr rfl

/-- Any other beginning of fourteen characters is that of another line. -/
theorem not_isVerdict (front rest : String) (hlength : 14 ≤ front.toList.length)
    (hstopped : front.toList.take 14 ≠ "API server sto".toList)
    (hfailed : front.toList.take 14 ≠ "Error stopping".toList) :
    isVerdict (front ++ rest) = false := by
  have htake : (front ++ rest).toList.take 14 = front.toList.take 14 := by
    rw [String.toList_append, List.take_append_of_le_length hlength]
  rw [Bool.eq_false_iff]
  intro hverdict
  rw [← htake] at hstopped hfailed
  exact (take_of_isVerdict hverdict).elim hstopped hfailed

theorem not_isVerdict_startFailedLine (error : String) :
    isVerdict (startFailedLine error) = false :=
  not_isVerdict "Failed to start API server: " error (by decide) (by decide) (by decide)

theorem not_isVerdict_startedLine (pid : Int) : isVerdict (startedLine pid) = false := by
  unfold startedLine
  rw [String.append_assoc]
  exact not_isVerdict "API server started (PID: " _ (by decide) (by decide) (by decide)

theorem not_isVerdict_of_mem_endpointLines {address line : String}
    (h : line ∈ endpointLines address) : isVerdict line = false := by
  unfold endpointLines at h
  obtain ⟨endpoint, -, rfl⟩ := List.mem_map.1 h
  simp only [String.append_assoc]
  exact not_isVerdict "  POST http://" _ (by decide) (by decide) (by decide)

/-! ## What is owed to a child -/

/-- The line that says how a stop goes with this host. -/
def verdictLine (host : Host) : String :=
  match host.terminateError with
  | some error => stopFailedLine error
  | none => if host.hangs then stopFailedLine host.timeoutText else stoppedLine

theorem isVerdict_verdictLine (host : Host) : isVerdict (verdictLine host) = true := by
  unfold verdictLine
  split
  · exact isVerdict_stopFailedLine _
  · split
    · exact isVerdict_stopFailedLine _
    · exact isVerdict_stoppedLine

/-- A piece of a run settles what is owed to the child that it begins with, but for what is still
owed to the child that it ends with: to tell it to end, and to say how that went. -/
structure Settles (host : Host) (before after : Option Int) (t : Trace) : Prop where
  lifecycle : before.toList.map Event.terminate =
    t.lifecycle ++ after.toList.map Event.terminate
  verdicts : before.toList.map (fun _ => verdictLine host) =
    t.verdicts ++ after.toList.map fun _ => verdictLine host

namespace Settles

variable {host : Host} {before middle after : Option Int} {t first second : Trace}

theorem append (hfirst : Settles host before middle first)
    (hsecond : Settles host middle after second) :
    Settles host before after (first ++ second) := by
  constructor
  · rw [hfirst.lifecycle, hsecond.lifecycle, Trace.lifecycle_append, List.append_assoc]
  · rw [hfirst.verdicts, hsecond.verdicts, Trace.verdicts_append, List.append_assoc]

/-- A piece in which nothing concerns a child leaves everything owed. -/
theorem of_silent (hlifecycle : t.lifecycle = []) (hverdicts : t.verdicts = []) :
    Settles host before before t := by
  constructor
  · rw [hlifecycle, List.nil_append]
  · rw [hverdicts, List.nil_append]

end Settles

/-! ## The pieces of a run -/

theorem lifecycle_lanAddress (host : Host) : (lanAddress host).2.lifecycle = [] := by
  unfold lanAddress
  split <;> rfl

theorem verdicts_lanAddress (host : Host) : (lanAddress host).2.verdicts = [] := by
  unfold lanAddress
  split <;> rfl

/-- The child that a start leaves when none was held. -/
def startedChild (host : Host) : Option Int :=
  if host.startError.isSome then none else some host.pid

/-- A start asks for a child once, and says nothing about a stop. -/
theorem startService_none (host : Host) :
    (startService host none).1 = startedChild host ∧
      (startService host none).2.lifecycle = [.startService true true] ∧
      (startService host none).2.verdicts = [] := by
  have hlifecycle := lifecycle_lanAddress host
  have hverdicts := verdicts_lanAddress host
  unfold startService startedChild
  cases host.startError with
  | some error =>
      refine ⟨rfl, rfl, ?_⟩
      simp [Trace.verdicts, not_isVerdict_startFailedLine]
  | none =>
      rcases hlan : lanAddress host with ⟨address, probed⟩
      rw [hlan] at hlifecycle hverdicts
      have hlines : List.filter isVerdict (startedLine host.pid :: endpointLines address) = [] := by
        rw [List.filter_eq_nil_iff]
        intro line hline
        rcases List.mem_cons.1 hline with rfl | hline
        · simp [not_isVerdict_startedLine]
        · simp [not_isVerdict_of_mem_endpointLines hline]
      refine ⟨rfl, ?_, ?_⟩
      · simp only [Trace.lifecycle_append, hlifecycle, List.append_nil]
        rfl
      · simp only [Trace.verdicts_append, hverdicts]
        exact hlines

theorem stopService_child (host : Host) (child : Option Int) :
    (stopService host child).1 = none := by
  unfold stopService
  cases child with
  | none => rfl
  | some pid => cases host.terminateError <;> rfl

/-- A stop settles everything, whether it goes well or not. -/
theorem settles_stopService (host : Host) (child : Option Int) :
    Settles host child none (stopService host child).2 := by
  cases child with
  | none => exact .of_silent rfl rfl
  | some pid =>
      have hverdict := isVerdict_verdictLine host
      unfold verdictLine at hverdict
      unfold stopService
      cases herror : host.terminateError with
      | some error =>
          refine ⟨rfl, ?_⟩
          simp [verdictLine, herror, Trace.verdicts, isVerdict_stopFailedLine]
      | none =>
          simp only [herror] at hverdict
          refine ⟨rfl, ?_⟩
          simp [verdictLine, herror, Trace.verdicts, hverdict]

/-- The session with the window settles everything, or nothing if the window does not open. -/
theorem settles_runWindow (host : Host) (file : Option String) (steps : List Window.Step)
    (child : Option Int) :
    Settles host child (runWindow host file steps child).child
      (runWindow host file steps child).trace := by
  unfold runWindow
  cases Window.create file host.storage with
  | error failure => exact .of_silent rfl rfl
  | ok w =>
      have hloop : Settles host child child ⟨[], [.windowLoop]⟩ := .of_silent rfl rfl
      have hstop := hloop.append (settles_stopService host child)
      rw [← stopService_child host child] at hstop
      exact hstop

/-- The exit settles what is left, if the stop was registered or no child is held. -/
theorem settles_runExit (host : Host) (registered : Bool) (child : Option Int)
    (h : registered = false → child = none) :
    (runExit host registered child).1 = none ∧
      Settles host child none (runExit host registered child).2 := by
  unfold runExit
  cases registered with
  | true =>
      have hexit : Settles host child child ⟨[], [.exit, .stopAtExit]⟩ := .of_silent rfl rfl
      exact ⟨stopService_child host child, hexit.append (settles_stopService host child)⟩
  | false =>
      have hnone := h rfl
      subst hnone
      exact ⟨rfl, .of_silent rfl rfl⟩

/-- Without a child nothing is printed in the session with the window, and the window is all that
the host is asked for. -/
theorem runWindow_none (host : Host) (file : Option String) (steps : List Window.Step) :
    (runWindow host file steps none).child = none ∧
      (runWindow host file steps none).trace.lines = [] ∧
      ∀ event ∈ (runWindow host file steps none).trace.events, event = .windowLoop := by
  unfold runWindow
  cases Window.create file host.storage with
  | error failure => simp [Trace.empty]
  | ok w => simp [stopService, Trace.empty]

/-! ## A run -/

section Run

variable {arguments : List String} (host : Host) (file : Option String)
  (steps : List Window.Step)

/-- If the service is wanted, what comes after the start settles everything. -/
theorem run_of_wantsService (h : wantsService arguments = true) :
    ∃ rest, (run arguments host file steps).trace = (startService host none).2 ++ rest ∧
      (run arguments host file steps).child = none ∧
      Settles host (startService host none).1 none rest ∧ Event.stopAtExit ∈ rest.events := by
  unfold run
  rw [h]
  let session := runWindow host file steps (startService host none).1
  have hsession := settles_runWindow host file steps (startService host none).1
  obtain ⟨hchild, hexit⟩ := settles_runExit host true session.child nofun
  refine ⟨session.trace ++ (runExit host true session.child).2, ?_, hchild,
    hsession.append hexit, ?_⟩
  · exact Trace.append_assoc _ _ _
  · simp [runExit]

/-- If it is not, no child is there at any time, nothing is printed and the host is asked for
nothing but the window. -/
theorem run_of_not_wantsService (h : wantsService arguments = false) :
    (run arguments host file steps).child = none ∧
      (run arguments host file steps).trace.lines = [] ∧
      ∀ event ∈ (run arguments host file steps).trace.events,
        event = .windowLoop ∨ event = .exit := by
  obtain ⟨hchild, hlines, hevents⟩ := runWindow_none host file steps
  unfold run
  rw [h]
  refine ⟨hchild, ?_, ?_⟩
  · simp [runExit, hlines, Trace.empty]
  · intro event hevent
    simp only [runExit, Trace.empty, Trace.events_append, List.mem_append] at hevent
    rcases hevent with (hstart | hsession) | hend
    · cases hstart
    · exact Or.inl (hevents event hsession)
    · exact Or.inr (List.mem_singleton.1 hend)

end Run

/-- **No child is left behind.** Whatever the host answers, the settings file holds and is done
with the window, no child is held at the end of a run. If the service is wanted it is started once,
and if it then runs it is told to end once, after that; exactly one line says how the stop went. In
any other run nothing is told to end and no line speaks of a stop. The stop at the exit is made
exactly if the service is wanted. If it is not, nothing is printed and nothing happens but the
window and the exit. -/
theorem run_settles (arguments : List String) (host : Host) (file : Option String)
    (steps : List Window.Step) :
    let r := run arguments host file steps
    let child := if wantsService arguments then startedChild host else none
    r.child = none ∧
      r.trace.lifecycle =
        (if wantsService arguments then [.startService true true] else []) ++
          child.toList.map Event.terminate ∧
      r.trace.verdicts = child.toList.map (fun _ => verdictLine host) ∧
      (Event.stopAtExit ∈ r.trace.events ↔ wantsService arguments = true) ∧
      (wantsService arguments = false →
        r.trace.lines = [] ∧ ∀ event ∈ r.trace.events, event = .windowLoop ∨ event = .exit) := by
  intro r child
  cases hwants : wantsService arguments with
  | true =>
      have hchild : child = startedChild host := if_pos hwants
      obtain ⟨hstarted, hlifecycle, hverdicts⟩ := startService_none host
      obtain ⟨rest, htrace, hnone, hsettles, hexit⟩ := run_of_wantsService host file steps hwants
      rw [hstarted, ← hchild] at hsettles
      have hended : rest.lifecycle = child.toList.map Event.terminate := by
        simpa using hsettles.lifecycle.symm
      have hsaid : rest.verdicts = child.toList.map fun _ => verdictLine host := by
        simpa using hsettles.verdicts.symm
      refine ⟨hnone, ?_, ?_, ?_, nofun⟩
      · rw [htrace, Trace.lifecycle_append, hlifecycle, hended]
        rfl
      · rw [htrace, Trace.verdicts_append, hverdicts, hsaid]
        rfl
      · rw [htrace, Trace.events_append]
        simp [hexit]
  | false =>
      have hchild : child = none := if_neg (by simp [hwants])
      obtain ⟨hnone, hlines, hevents⟩ := run_of_not_wantsService host file steps hwants
      have hlifecycle : r.trace.lifecycle = [] := by
        refine List.filter_eq_nil_iff.2 ?_
        intro event hevent
        rcases hevents event hevent with rfl | rfl <;> simp [Event.isLifecycle]
      refine ⟨hnone, ?_, ?_, ?_, fun _ => ⟨hlines, hevents⟩⟩
      · rw [hlifecycle, hchild]
        rfl
      · rw [Trace.verdicts, hlines, hchild]
        rfl
      · refine iff_of_false ?_ nofun
        intro hexit
        rcases hevents _ hexit with h | h <;> cases h

/-- The window does not open and the child cannot be told to end: the stop at the exit has tried
once and has said so once. With the flag, nothing is printed by the same host. -/
theorem run_settles_unopened :
    let host : Host :=
      { address := none, socketFails := true, pid := 7, startError := none,
        terminateError := some "denied", hangs := false }
    (run [] host (some "[]") []).child = none ∧
      (run [] host (some "[]") []).trace.lifecycle = [.startService true true, .terminate 7] ∧
      (run [] host (some "[]") []).trace.verdicts = ["Error stopping API server: denied"] ∧
      wantsService ["--no-api"] = false ∧
      (run ["--no-api"] host (some "[]") []).trace.lines = [] := by
  intro host
  have hflag : wantsService ["--no-api"] = false := by decide
  obtain ⟨hchild, hlifecycle, hverdicts, -⟩ := run_settles [] host (some "[]") []
  obtain ⟨-, -, -, -, hsilent⟩ := run_settles ["--no-api"] host (some "[]") []
  exact ⟨hchild, hlifecycle, hverdicts, hflag, (hsilent hflag).1⟩

end DeskCalc.Desktop
