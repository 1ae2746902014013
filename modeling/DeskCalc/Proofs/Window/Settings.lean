import DeskCalc.Proofs.Json.RoundTrip
import DeskCalc.Window.Settings

set_option autoImplicit false

/-! # Settings that are saved and loaded

Every switch of the theme puts the setting for dark mode among the fields of the file. What the
file holds after a number of switches depends on the fields at the start and on that number only
(`fieldsAfter`), so switches may be counted across several readings of the file
(`fieldsAfter_fieldsAfter`). Saved fields are well formed, because fields that have been read are,
and so they are read again as they were saved (`Keeps.fileAfter`).

Settings are saved, or there is one reason why not (`savable_or_blocked`), which decides what is
left of the file (`Blocked`).
-/

namespace DeskCalc

namespace Json

theorem put_put (key : String) (first second : Json) (fields : List (String × Json)) :
    put key second (put key first fields) = put key second fields := by
  induction fields with
  | nil => rw [put, put, put, if_pos rfl]
  | cons field rest ih =>
      obtain ⟨k, v⟩ := field
      by_cases h : k = key
      · rw [put, if_pos h, put, if_pos h, put, if_pos h]
      · rw [put, if_neg h, put, if_neg h, put, if_neg h, ih]

end Json

namespace Settings

/-! ## Reading -/

/-- The file is missing, is not well formed, or holds an object. -/
inductive Readable (depth : Nat) : Option String → Prop where
  | missing : Readable depth none
  | malformed {text : String} (h : Json.read (some depth) text.toList = .error .malformed) :
      Readable depth (some text)
  | object {text : String} {fields : List (String × Json)}
      (h : Json.read (some depth) text.toList = .ok (.object fields)) : Readable depth (some text)

/-- The file holds a document that is no object, or one that is nested too deeply. -/
inductive Unreadable (depth : Nat) : Option String → ReadFailure → Prop where
  | notAnObject {text : String} {document : Json}
      (h : Json.read (some depth) text.toList = .ok document)
      (hobject : ∀ fields, document ≠ .object fields) :
      Unreadable depth (some text) (.notAnObject document)
  | tooDeep {text : String} {opened : Json.Container}
      (h : Json.read (some depth) text.toList = .error (.tooDeep opened)) :
      Unreadable depth (some text) (.tooDeep opened)

theorem readable_or_unreadable (depth : Nat) (file : Option String) :
    Readable depth file ∨ ∃ failure, Unreadable depth file failure := by
  cases file with
  | none => exact Or.inl .missing
  | some text =>
      cases hread : Json.read (some depth) text.toList with
      | error fault =>
          cases fault with
          | malformed => exact Or.inl (.malformed hread)
          | tooDeep opened => exact Or.inr ⟨_, .tooDeep hread⟩
      | ok document =>
          by_cases hobject : ∃ fields, document = .object fields
          · obtain ⟨fields, rfl⟩ := hobject
            exact Or.inl (.object hread)
          · exact Or.inr ⟨_, .notAnObject hread fun fields h => hobject ⟨fields, h⟩⟩

section Reading

variable {depth : Nat} {file : Option String}

theorem Unreadable.read_eq {failure : ReadFailure} (h : Unreadable depth file failure) :
    read depth file = .error failure := by
  cases h with
  | tooDeep h => rw [read, load, h]
  | @notAnObject text document h hobject =>
      rw [read, load, h]
      cases document with
      | object fields => exact absurd rfl (hobject fields)
      | _ => rfl

/-- No setting is found in a file that cannot be read. -/
theorem Unreadable.darkMode_eq {failure : ReadFailure} (h : Unreadable depth file failure) :
    darkMode depth file = .error failure := by
  rw [darkMode, h.read_eq]
  rfl

/-- The settings that are read can be read again after they have been written. -/
theorem Readable.exists_read (h : Readable depth file) (hdepth : 0 < depth) :
    ∃ fields, read depth file = .ok fields ∧ Json.WellFormed depth (.object fields) := by
  have hempty : Json.WellFormed depth (.object []) :=
    (Json.wellFormed_object_nil 0).mono hdepth
  cases h with
  | missing => exact ⟨[], rfl, hempty⟩
  | malformed h => exact ⟨[], by rw [read, load, h], hempty⟩
  | @object text fields h =>
      exact ⟨fields, by rw [read, load, h], Json.wellFormed_of_read h⟩

theorem readable_of_read {fields : List (String × Json)} (h : read depth file = .ok fields) :
    Readable depth file := by
  rcases readable_or_unreadable depth file with hreadable | ⟨failure, hunreadable⟩
  · exact hreadable
  · rw [hunreadable.read_eq] at h
    cases h

theorem wellFormed_of_read {fields : List (String × Json)} (hdepth : 0 < depth)
    (h : read depth file = .ok fields) : Json.WellFormed depth (.object fields) := by
  obtain ⟨fields', hread, hfields⟩ := (readable_of_read h).exists_read hdepth
  rw [h] at hread
  rwa [Except.ok.inj hread]

/-- Settings that are written are read again. -/
theorem read_toIndented {fields : List (String × Json)}
    (h : Json.WellFormed depth (.object fields)) :
    read depth (some (Json.toIndented (.object fields))) = .ok fields := by
  rw [read, load, Json.read_toIndented h]

/-- A setting that is on or off takes up no room of its own. -/
theorem wellFormed_put_bool {fields : List (String × Json)}
    (h : Json.WellFormed depth (.object fields)) (key : String) (b : Bool) :
    Json.WellFormed depth (.object (Json.put key (.bool b) fields)) := by
  cases h with
  | object hkeys hfields => exact (Json.WellFormed.object hkeys hfields).put (.bool b)

end Reading

/-! ## Saving -/

/-- Settings can be saved: those in the file can be read, and the file can be written. -/
structure Savable (storage : Storage) (file : Option String) : Prop where
  readable : Readable storage.depth file
  writing : storage.writing = .done

/-- Settings can be saved, and the given ones are in the file. -/
structure Keeps (storage : Storage) (file : Option String) (fields : List (String × Json)) :
    Prop where
  read : read storage.depth file = .ok fields
  writing : storage.writing = .done

/-- Why settings are not saved, and which file is left. The file stays as it is, unless writing has
begun. -/
inductive Blocked (storage : Storage) (file : Option String) (new : List (String × Json)) :
    SaveFailure → Option String → Prop where
  | unread {failure : ReadFailure} (h : Unreadable storage.depth file failure) :
      Blocked storage file new (.unread failure) file
  | refused {error : String} (h : Readable storage.depth file)
      (hwriting : storage.writing = .refused error) :
      Blocked storage file new (.unwritten error) file
  | interrupted {error : String} {length : Nat} {old : List (String × Json)}
      (h : read storage.depth file = .ok old)
      (hwriting : storage.writing = .interrupted error length) :
      Blocked storage file new (.unwritten error)
        (some (String.ofList ((savedText old new).toList.take length)))

section Saving

variable {storage : Storage} {file : Option String}

theorem savable_or_blocked (storage : Storage) (file : Option String)
    (new : List (String × Json)) :
    Savable storage file ∨ ∃ failure left, Blocked storage file new failure left := by
  rcases readable_or_unreadable storage.depth file with hreadable | ⟨failure, hunreadable⟩
  · cases hwriting : storage.writing with
    | done => exact Or.inl ⟨hreadable, hwriting⟩
    | refused error => exact Or.inr ⟨_, _, .refused hreadable hwriting⟩
    | interrupted error length =>
        obtain ⟨old, hread, -⟩ := hreadable.exists_read storage.depth_pos
        exact Or.inr ⟨_, _, .interrupted hread hwriting⟩
  · exact Or.inr ⟨_, _, .unread hunreadable⟩

theorem save_of_read {old : List (String × Json)} (h : read storage.depth file = .ok old)
    (new : List (String × Json)) :
    save storage file new = storage.write file (savedText old new) := by
  rw [save, h]

theorem Savable.exists_keeps (h : Savable storage file) :
    ∃ fields, Keeps storage file fields := by
  obtain ⟨fields, hread, -⟩ := h.readable.exists_read storage.depth_pos
  exact ⟨fields, hread, h.writing⟩

theorem Keeps.save_eq {old : List (String × Json)} (h : Keeps storage file old)
    (new : List (String × Json)) :
    save storage file new = (some (savedText old new), .ok ()) := by
  rw [save_of_read h.read, Storage.write, h.writing]

theorem Blocked.save_eq {new : List (String × Json)} {failure : SaveFailure}
    {left : Option String} (h : Blocked storage file new failure left) :
    save storage file new = (left, .error failure) := by
  cases h with
  | unread h => rw [save, h.read_eq]
  | refused h hwriting =>
      obtain ⟨old, hread, -⟩ := h.exists_read storage.depth_pos
      rw [save_of_read hread, Storage.write, hwriting]
  | interrupted h hwriting => rw [save_of_read h, Storage.write, hwriting]

/-- A setting for dark mode that has been saved is found again. -/
theorem darkMode_savedText {old : List (String × Json)} (h : read storage.depth file = .ok old)
    (b : Bool) :
    darkMode storage.depth (some (savedText old [(darkModeKey, .bool b)])) = .ok (.bool b) := by
  have hold := wellFormed_of_read storage.depth_pos h
  have hnew : read storage.depth (some (savedText old [(darkModeKey, .bool b)])) =
      .ok (Json.put darkModeKey (.bool b) old) :=
    read_toIndented (wellFormed_put_bool hold darkModeKey b)
  rw [darkMode, hnew, Except.map, darkModeOf, Json.lookup_put_self, Option.getD_some]

end Saving

/-! ## Switching -/

/-- The fields ask for dark mode. -/
def isDark (fields : List (String × Json)) : Bool := (darkModeOf fields).truthy

/-- Dark mode is on after a number of switches. -/
def darkAfter (fields : List (String × Json)) (switches : Nat) : Bool :=
  isDark fields ^^ decide (switches % 2 = 1)

/-- The setting after a number of switches. -/
def settingAfter (fields : List (String × Json)) (switches : Nat) : Json :=
  if switches = 0 then darkModeOf fields else .bool (darkAfter fields switches)

/-- The fields in the file after a number of switches. -/
def fieldsAfter (fields : List (String × Json)) (switches : Nat) : List (String × Json) :=
  if switches = 0 then fields
  else Json.put darkModeKey (.bool (darkAfter fields switches)) fields

/-- The file with the given fields after a number of switches. -/
def fileAfter (file : Option String) (fields : List (String × Json)) (switches : Nat) :
    Option String :=
  if switches = 0 then file else some (Json.toIndented (.object (fieldsAfter fields switches)))

variable {file : Option String} {fields : List (String × Json)}

theorem darkAfter_zero : darkAfter fields 0 = isDark fields := Bool.xor_false _

theorem darkAfter_succ (n : Nat) : darkAfter fields (n + 1) = !darkAfter fields n := by
  have hparity : decide ((n + 1) % 2 = 1) = !decide (n % 2 = 1) := by
    rw [← decide_not]
    exact decide_eq_decide.2 (by omega)
  rw [darkAfter, darkAfter, hparity, Bool.xor_not]

theorem truthy_settingAfter (fields : List (String × Json)) (n : Nat) :
    (settingAfter fields n).truthy = darkAfter fields n := by
  unfold settingAfter
  split
  · rename_i hzero
    rw [hzero, darkAfter_zero]
    rfl
  · rfl

theorem isDark_fieldsAfter (n : Nat) : isDark (fieldsAfter fields n) = darkAfter fields n := by
  unfold fieldsAfter
  split
  · rename_i hzero
    rw [hzero, darkAfter_zero]
  · rw [isDark, darkModeOf, Json.lookup_put_self]
    rfl

theorem darkAfter_fieldsAfter (m n : Nat) :
    darkAfter (fieldsAfter fields m) n = darkAfter fields (m + n) := by
  have hparity : decide ((m + n) % 2 = 1) = (decide (m % 2 = 1) ^^ decide (n % 2 = 1)) := by
    rcases Nat.mod_two_eq_zero_or_one m with hm | hm <;>
      rcases Nat.mod_two_eq_zero_or_one n with hn | hn <;> simp [Nat.add_mod, hm, hn]
  rw [darkAfter, isDark_fieldsAfter, darkAfter, darkAfter, hparity, Bool.xor_assoc]

/-- Switches may be counted from any moment on. -/
theorem fieldsAfter_fieldsAfter (m n : Nat) :
    fieldsAfter (fieldsAfter fields m) n = fieldsAfter fields (m + n) := by
  by_cases hn : n = 0
  · rw [hn, Nat.add_zero]
    rfl
  · rw [fieldsAfter, if_neg hn, darkAfter_fieldsAfter]
    by_cases hm : m = 0
    · rw [hm, Nat.zero_add, fieldsAfter, if_pos rfl, fieldsAfter, if_neg hn]
    · rw [fieldsAfter, if_neg hm, Json.put_put, fieldsAfter, if_neg (by omega)]

theorem put_fieldsAfter (n : Nat) :
    Json.put darkModeKey (.bool (!darkAfter fields n)) (fieldsAfter fields n) =
      fieldsAfter fields (n + 1) := by
  have hone : fieldsAfter (fieldsAfter fields n) 1 =
      Json.put darkModeKey (.bool (!darkAfter fields n)) (fieldsAfter fields n) := by
    rw [fieldsAfter, if_neg Nat.one_ne_zero, darkAfter_fieldsAfter, darkAfter_succ]
  rw [← hone, fieldsAfter_fieldsAfter]

/-- After switches the file keeps the fields after them. -/
theorem Keeps.fileAfter {storage : Storage} (h : Keeps storage file fields) (n : Nat) :
    Keeps storage (Settings.fileAfter file fields n) (fieldsAfter fields n) := by
  refine ⟨?_, h.writing⟩
  have hfields := wellFormed_of_read storage.depth_pos h.read
  -- Without a switch the file is the one found, in whatever layout; else it was written here.
  by_cases hn : n = 0
  · rw [hn]
    exact h.read
  · rw [Settings.fileAfter, if_neg hn]
    refine read_toIndented ?_
    rw [fieldsAfter, if_neg hn]
    exact wellFormed_put_bool hfields darkModeKey _

theorem fileAfter_succ (n : Nat) :
    fileAfter file fields (n + 1) = some (Json.toIndented (.object (fieldsAfter fields (n + 1)))) :=
  if_neg (Nat.succ_ne_zero n)

/-- The setting after one more switch is saved with the other fields. -/
theorem Keeps.save_fileAfter {storage : Storage} (h : Keeps storage file fields) (n : Nat) :
    save storage (Settings.fileAfter file fields n)
        [(darkModeKey, .bool (!darkAfter fields n))] =
      (Settings.fileAfter file fields (n + 1), .ok ()) := by
  rw [(h.fileAfter n).save_eq, fileAfter_succ, ← put_fieldsAfter]
  rfl

end Settings

end DeskCalc
