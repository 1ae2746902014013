set_option autoImplicit false

/-! # Scanners

A scanner reads a text one character at a time. It is in some state, each character makes it
put out a few items and move to another state or stop with a fault, and the end of the text
makes it put out its last items. The position of the character is given to every step, so that
a fault can name it.

`advance` reads a part of a text and `run` reads all of it; `run_append` says that a text can
be read in two parts. `scan` reads as much of a text as it can, for a reader that has to know what
stands before a fault.
-/

namespace DeskCalc

/-- A machine that turns characters into items. -/
structure Scanner (State Item Fault : Type) where
  /-- What the character at a position does. -/
  step : Nat → State → Char → Except Fault (List Item × State)
  /-- What the end of the text at a position does. -/
  finish : Nat → State → Except Fault (List Item)

namespace Scanner

variable {State Item Fault : Type}

/-- The items put out for a whole text. -/
def run (m : Scanner State Item Fault) (pos : Nat) (state : State) :
    List Char → Except Fault (List Item)
  | [] => m.finish pos state
  | c :: cs =>
      match m.step pos state c with
      | .error fault => .error fault
      | .ok (items, next) =>
          match run m (pos + 1) next cs with
          | .error fault => .error fault
          | .ok rest => .ok (items ++ rest)

/-- The items put out for a text before its first fault, and that fault, if there is one. -/
def scan (m : Scanner State Item Fault) (pos : Nat) (state : State) :
    List Char → List Item × Option Fault
  | [] =>
      match m.finish pos state with
      | .error fault => ([], some fault)
      | .ok items => (items, none)
  | c :: cs =>
      match m.step pos state c with
      | .error fault => ([], some fault)
      | .ok (items, next) =>
          let (rest, fault) := scan m (pos + 1) next cs
          (items ++ rest, fault)

/-- The items put out for the first part of a text, and the state after it. -/
def advance (m : Scanner State Item Fault) (pos : Nat) (state : State) :
    List Char → Except Fault (List Item × State)
  | [] => .ok ([], state)
  | c :: cs =>
      match m.step pos state c with
      | .error fault => .error fault
      | .ok (items, next) =>
          match advance m (pos + 1) next cs with
          | .error fault => .error fault
          | .ok (rest, last) => .ok (items ++ rest, last)

/-- A text is read by a step on its first character and a run on the rest. -/
theorem run_cons_eq_ok {m : Scanner State Item Fault} {pos : Nat} {state : State} {c : Char}
    {cs : List Char} {items : List Item} :
    m.run pos state (c :: cs) = .ok items ↔
      ∃ first next rest, m.step pos state c = .ok (first, next) ∧
        m.run (pos + 1) next cs = .ok rest ∧ items = first ++ rest := by
  rw [run]
  cases hstep : m.step pos state c with
  | error fault => simp
  | ok out =>
      obtain ⟨first, next⟩ := out
      dsimp only
      cases hrun : m.run (pos + 1) next cs with
      | error fault =>
          constructor
          · intro h
            cases h
          · rintro ⟨_, _, rest, hout, hrest, -⟩
            cases hout
            rw [hrun] at hrest
            cases hrest
      | ok rest =>
          constructor
          · intro h
            exact ⟨first, next, rest, rfl, hrun, (Except.ok.inj h).symm⟩
          · rintro ⟨_, _, rest', hout, hrest, rfl⟩
            cases hout
            rw [hrun] at hrest
            rw [Except.ok.inj hrest]

/-- A text that is read to its end has no fault. -/
theorem scan_of_run {m : Scanner State Item Fault} {pos : Nat} {state : State}
    {text : List Char} {items : List Item} (h : m.run pos state text = .ok items) :
    m.scan pos state text = (items, none) := by
  induction text generalizing pos state items with
  | nil =>
      have hfinish : m.finish pos state = .ok items := h
      rw [scan, hfinish]
  | cons c cs ih =>
      obtain ⟨first, next, rest, hstep, hrest, rfl⟩ := run_cons_eq_ok.1 h
      rw [scan, hstep]
      simp only [ih hrest]

theorem mem_scan_nil {m : Scanner State Item Fault} {pos : Nat} {state : State} {item : Item}
    (h : item ∈ (m.scan pos state []).1) :
    ∃ items, m.finish pos state = .ok items ∧ item ∈ items := by
  rw [scan] at h
  cases hfinish : m.finish pos state with
  | error fault =>
      rw [hfinish] at h
      cases h
  | ok items =>
      rw [hfinish] at h
      exact ⟨items, rfl, h⟩

theorem mem_scan_cons {m : Scanner State Item Fault} {pos : Nat} {state : State} {c : Char}
    {cs : List Char} {item : Item} (h : item ∈ (m.scan pos state (c :: cs)).1) :
    ∃ items next, m.step pos state c = .ok (items, next) ∧
      (item ∈ items ∨ item ∈ (m.scan (pos + 1) next cs).1) := by
  rw [scan] at h
  cases hstep : m.step pos state c with
  | error fault =>
      rw [hstep] at h
      cases h
  | ok out =>
      obtain ⟨items, next⟩ := out
      rw [hstep] at h
      exact ⟨items, next, rfl, List.mem_append.1 h⟩

/-- A text can be read in two parts. -/
theorem run_append (m : Scanner State Item Fault) (pos : Nat) (state : State)
    (first second : List Char) :
    m.run pos state (first ++ second) =
      match m.advance pos state first with
      | .error fault => .error fault
      | .ok (items, next) =>
          match m.run (pos + first.length) next second with
          | .error fault => .error fault
          | .ok rest => .ok (items ++ rest) := by
  induction first generalizing pos state with
  | nil =>
      simp only [List.nil_append, advance, List.length_nil, Nat.add_zero]
      cases m.run pos state second <;> rfl
  | cons c cs ih =>
      simp only [List.cons_append, run, advance]
      cases m.step pos state c with
      | error fault => rfl
      | ok out =>
          obtain ⟨items, next⟩ := out
          simp only [ih, List.length_cons]
          cases m.advance (pos + 1) next cs with
          | error fault => rfl
          | ok out' =>
              obtain ⟨items', next'⟩ := out'
              simp only [Nat.add_assoc, Nat.add_comm 1]
              cases m.run (pos + (cs.length + 1)) next' second with
              | error fault => rfl
              | ok rest => simp [List.append_assoc]

end Scanner

end DeskCalc
