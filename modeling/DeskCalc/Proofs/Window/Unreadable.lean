import Mathlib.Algebra.Group.Nat.Even
import DeskCalc.Proofs.Window.Steps

set_option autoImplicit false

/-! # Settings that cannot be read or written

No setting can be found in a document that is no object, and none can be saved into one. A document
that is nested more deeply than can be read is of no use either. So a window does not open beside
such a file, while it opens in light mode beside a file that is missing or not well formed.

A file may come to hold such a document while the window is open, or can no longer be written. Then
the theme cannot be switched: the click fails, and the setting is switched all the same, while the
widgets stay as they are, as does the file unless writing has begun. Setting and widgets agree again
after the next failure, so they agree exactly if an even number of switches has failed since one
went through (`inTheme_perform_iff` for one step).
-/

namespace DeskCalc

namespace Window

variable {w : Window}

/-! ## Opening -/

theorem create_of_malformed {storage : Settings.Storage} {text : String}
    (h : Json.read (some storage.depth) text.toList = .error .malformed) :
    create (some text) storage =
      .ok ⟨.default, ⟨"", ""⟩, .bool false, false, some text, storage⟩ := by
  have hread : Settings.read storage.depth (some text) = .ok [] := by
    rw [Settings.read, Settings.load, h]
  exact create_of_read hread

theorem exists_create_iff (storage : Settings.Storage) (file : Option String) :
    (∃ w, create file storage = .ok w) ↔ Settings.Readable storage.depth file := by
  constructor
  · rintro ⟨w, hcreate⟩
    exact (eq_of_create hcreate).1
  · intro h
    obtain ⟨fields, hread, -⟩ := h.exists_read storage.depth_pos
    exact ⟨_, create_of_read hread⟩

/-- However deeply a document may be nested, there is a file that is nested more deeply. -/
theorem exists_unreadable_tooDeep (depth : Nat) :
    ∃ text, Settings.Unreadable depth (some text) (.tooDeep .array) := by
  refine ⟨String.ofList (List.replicate (depth + 1) '['), .tooDeep ?_⟩
  rw [String.toList_ofList]
  exact Json.read_replicate depth

/-- **Opening.** A window opens beside a settings file exactly if the file is missing, is not well
formed or holds an object. Beside any other document, and beside one that is nested too deeply, it
fails to find the setting; there are such files under every limit. Without a file it opens in light
mode, and just so beside a file that is not well formed. -/
theorem opens_iff_readable (storage : Settings.Storage) (file : Option String) :
    ((∃ w, create file storage = .ok w) ↔ Settings.Readable storage.depth file) ∧
      (∀ failure, Settings.Unreadable storage.depth file failure →
        create file storage = .error (.unreadable failure)) ∧
      (∃ text, Settings.Unreadable storage.depth (some text) (.tooDeep .array)) ∧
      ∃ plain, create none storage = .ok plain ∧ plain.darkMode = .bool false ∧
        plain.palette = .light ∧
        ∀ text : String, Json.read (some storage.depth) text.toList = .error .malformed →
          create (some text) storage = .ok { plain with file := some text } := by
  refine ⟨exists_create_iff storage file, fun failure => create_of_unreadable,
    exists_unreadable_tooDeep storage.depth, ?_⟩
  exact ⟨⟨.default, ⟨"", ""⟩, .bool false, false, none, storage⟩, rfl, rfl, rfl,
    fun text => create_of_malformed⟩

/-- An opening brace alone is not well formed. -/
theorem opens_iff_readable_brace :
    Json.read (some Settings.Storage.ordinary.depth) "\x7b".toList = .error .malformed ∧
      ∃ w, create (some "\x7b") = .ok w ∧ w.darkMode = .bool false ∧ w.palette = .light := by
  have hmalformed :
      Json.read (some Settings.Storage.ordinary.depth) "\x7b".toList = .error .malformed := rfl
  obtain ⟨-, -, -, plain, -, hsetting, hpalette, hopens⟩ := opens_iff_readable .ordinary none
  exact ⟨hmalformed, _, hopens _ hmalformed, hsetting, hpalette⟩

/-- An empty array is well formed, and no window opens beside it. -/
theorem not_opens_array : ¬∃ w, create (some "[]") = .ok w := by
  rintro ⟨w, hcreate⟩
  have hfails : create (some "[]") = .error (.unreadable (.notAnObject (.array []))) := rfl
  rw [hfails] at hcreate
  cases hcreate

/-! ## The theme on show -/

/-- The widgets on show are those of the setting: its palette, and the button with its sign. -/
structure InTheme (w : Window) : Prop where
  palette : w.palette = .ofDark w.darkMode.truthy
  button : w.buttons.head? = some (themeGlyph w.darkMode.truthy, .switchTheme)

theorem inTheme_iff : w.InTheme ↔ w.dark = w.darkMode.truthy := by
  constructor
  · intro h
    have hpalette : Palette.ofDark w.dark = Palette.ofDark w.darkMode.truthy := h.palette
    revert hpalette
    cases w.dark <;> cases w.darkMode.truthy <;> decide
  · intro h
    constructor
    · rw [Window.palette, h]
    · rw [buttons, h, List.head?_cons]

/-- Where settings can be saved the theme is switched, and the setting is in the file after
that. -/
theorem Recorded.switchTheme_of_savable (hw : w.Recorded)
    (h : Settings.Savable w.storage w.file) :
    ∃ next, w.switchTheme = (next, .ok ()) ∧ next.InTheme ∧
      next.darkMode = w.flipped ∧
      Settings.darkMode w.storage.depth next.file = .ok w.flipped := by
  obtain ⟨old, hkeeps⟩ := h.exists_keeps
  obtain ⟨lines, hlines⟩ := hw.exists_linesOf
  let rebuilt : Window :=
    { w with
      darkMode := w.flipped
      dark := w.flipped.truthy
      file := some (Settings.savedText old [(Settings.darkModeKey, w.flipped)]) }
  have hswitch : w.switchTheme = ({ rebuilt with lines := lines }, .ok ()) := by
    rw [switchTheme_of_saved (hkeeps.save_eq _)]
    exact refresh_of_linesOf (w := rebuilt) hlines
  refine ⟨_, hswitch, inTheme_iff.2 rfl, rfl, ?_⟩
  exact Settings.darkMode_savedText hkeeps.read _

/-- A switch that fails turns the setting over and not the theme on show. -/
theorem inTheme_of_blocked {failure : Settings.SaveFailure} {left : Option String}
    (h : Settings.Blocked w.storage w.file [(Settings.darkModeKey, w.flipped)] failure left) :
    w.switchTheme.1.InTheme ↔ ¬w.InTheme := by
  have hflip : ∀ dark setting : Bool, dark = !setting ↔ ¬dark = setting := by decide
  rw [switchTheme_of_blocked h, inTheme_iff, inTheme_iff]
  exact hflip w.dark w.darkMode.truthy

/-! ## Switches that fail -/

/-- The number of switches that have failed since one went through, after one more step. -/
def missedAfter (w : Window) (step : Step) (missed : Nat) : Nat :=
  match w.isSwitch step, (w.perform step).2 with
  | false, _ => missed
  | true, .ok _ => 0
  | true, .error _ => missed + 1

/-- The number of switches that have failed since one went through, after several more steps. -/
def missed (w : Window) (before : Nat) : List Step → Nat
  | [] => before
  | step :: steps => (w.perform step).1.missed (w.missedAfter step before) steps

/-- The theme on show is that of the setting exactly if the number of failures is even. -/
theorem inTheme_perform_iff (hw : w.Recorded) {n : Nat} (h : w.InTheme ↔ Even n) (step : Step) :
    (w.perform step).1.InTheme ↔ Even (w.missedAfter step n) := by
  unfold missedAfter
  cases hswitch : w.isSwitch step with
  | false =>
      obtain ⟨hsetting, hdark⟩ := theme_perform hswitch
      rw [inTheme_iff, hsetting, hdark, ← inTheme_iff]
      exact h
  | true =>
      rw [perform_of_isSwitch hswitch]
      rcases w.savable_or_blocked with hsavable | ⟨failure, left, hblocked⟩
      · obtain ⟨next, hnext, htheme, -⟩ := hw.switchTheme_of_savable hsavable
        rw [hnext]
        exact iff_of_true htheme Even.zero
      · -- one more failure: the setting and the number both change sides
        have hflip := inTheme_of_blocked hblocked
        rw [switchTheme_of_blocked hblocked] at hflip ⊢
        show InTheme _ ↔ Even (n + 1)
        rw [Nat.even_add_one, ← h]
        exact hflip

theorem inTheme_afterSteps_iff (hw : w.Recorded) {n : Nat} (h : w.InTheme ↔ Even n)
    (steps : List Step) : (w.afterSteps steps).InTheme ↔ Even (w.missed n steps) := by
  induction steps generalizing w n with
  | nil => exact h
  | cons step steps ih => exact ih (hw.perform step) (inTheme_perform_iff hw h step)

theorem inTheme_create {file : Option String} {storage : Settings.Storage}
    (h : create file storage = .ok w) : w.InTheme := by
  obtain ⟨-, setting, rfl⟩ := eq_of_create h
  exact inTheme_iff.2 rfl

/-- The theme is switched exactly where settings can be saved. -/
theorem Recorded.exists_switchTheme_iff (hw : w.Recorded) :
    (∃ next, w.switchTheme = (next, .ok ())) ↔ Settings.Savable w.storage w.file := by
  constructor
  · rintro ⟨next, hnext⟩
    rcases w.savable_or_blocked with hsavable | ⟨failure, left, hblocked⟩
    · exact hsavable
    · rw [switchTheme_of_blocked hblocked] at hnext
      cases hnext
  · intro h
    obtain ⟨next, hnext, -⟩ := hw.switchTheme_of_savable h
    exact ⟨next, hnext⟩

/-- **Switching.** Whatever has been done with a window, whatever has become of the settings file
and however it is read and written, the theme is that of the setting exactly if an even number of
switches has failed since one went through. The next switch goes through exactly if the file is
missing, malformed or an object, and can be written: then the setting changes sides, is in the file,
and the theme is that of the setting. Otherwise it fails. What it changes is the setting, and the
file if writing has begun. -/
theorem theme_after_steps {file : Option String} {storage : Settings.Storage}
    (h : create file storage = .ok w) (steps : List Step) :
    let v := w.afterSteps steps
    (v.InTheme ↔ Even (w.missed 0 steps)) ∧
      ((∃ next, v.click (themeGlyph v.dark) = (next, .ok ())) ↔
        Settings.Savable v.storage v.file) ∧
      (Settings.Savable v.storage v.file →
        ∃ next, v.click (themeGlyph v.dark) = (next, .ok ()) ∧ next.InTheme ∧
          next.darkMode = .bool (!v.darkMode.truthy) ∧
          Settings.darkMode v.storage.depth next.file = .ok next.darkMode) ∧
      ∀ failure left,
        Settings.Blocked v.storage v.file [(Settings.darkModeKey, v.flipped)] failure left →
        ∃ next, v.click (themeGlyph v.dark) = (next, .error (.unwritable failure)) ∧
          next = { v with darkMode := .bool (!v.darkMode.truthy), file := left } ∧
          next.view = v.view := by
  intro v
  have hrecorded : w.Recorded := recorded_create h
  have hv : v.Recorded := hrecorded.afterSteps steps
  have hstart : w.InTheme ↔ Even 0 := iff_of_true (inTheme_create h) Even.zero
  rw [click_themeGlyph]
  refine ⟨inTheme_afterSteps_iff hrecorded hstart steps, hv.exists_switchTheme_iff, ?_, ?_⟩
  · intro hsavable
    obtain ⟨next, hnext, htheme, hsetting, hsaved⟩ := hv.switchTheme_of_savable hsavable
    rw [← hsetting] at hsaved
    exact ⟨next, hnext, htheme, hsetting, hsaved⟩
  · intro failure left hblocked
    rw [switchTheme_of_blocked hblocked]
    exact ⟨_, rfl, rfl, rfl⟩

/-- Another program writes an empty array, and two switches fail in a row. The theme is that of
the setting again, and the next switch fails as well. -/
theorem theme_after_steps_array :
    ∃ w, create none = .ok w ∧
      let v := w.afterSteps [.write (some "[]"), .click "☾", .click "☾"]
      v.InTheme ∧ Settings.Unreadable v.storage.depth v.file (.notAnObject (.array [])) ∧
        (v.click "☾").2 = .error (.unwritable (.unread (.notAnObject (.array [])))) := by
  let w : Window := ⟨.default, ⟨"", ""⟩, .bool false, false, none, .ordinary⟩
  have hcreate : create none = .ok w := rfl
  have harray : Settings.Unreadable Settings.Storage.ordinary.depth (some "[]")
      (.notAnObject (.array [])) := .notAnObject rfl nofun
  obtain ⟨htheme, -, -, hfails⟩ :=
    theme_after_steps hcreate [.write (some "[]"), .click "☾", .click "☾"]
  obtain ⟨next, hclick, -⟩ := hfails _ _ (.unread harray)
  have hmissed : w.missed 0 [.write (some "[]"), .click "☾", .click "☾"] = 2 := rfl
  rw [hmissed] at htheme
  exact ⟨w, hcreate, htheme.2 even_two, harray, congrArg Prod.snd hclick⟩

/-- After one of those clicks the setting has changed, although the click has failed, and the
theme is no longer that of the setting. -/
theorem setting_changed_array :
    ∃ w, create none = .ok w ∧
      let v := w.afterSteps [.write (some "[]")]
      (v.click "☾").2 = .error (.unwritable (.unread (.notAnObject (.array [])))) ∧
        (v.click "☾").1.darkMode ≠ v.darkMode ∧ ¬(v.click "☾").1.InTheme := by
  refine ⟨⟨.default, ⟨"", ""⟩, .bool false, false, none, .ordinary⟩, rfl, rfl, ?_, ?_⟩
  · intro hsetting
    have hbool : Json.bool true = .bool false := hsetting
    cases hbool
  · intro htheme
    have hdark : false = true := inTheme_iff.1 htheme
    cases hdark

end Window

end DeskCalc
