import DeskCalc.Json.Printer
import DeskCalc.Json.Reader

set_option autoImplicit false

/-! # The settings file

The settings are the fields of a JSON document. A file that is missing or not well formed holds
no settings. Saving puts the new fields among those in the file and leaves the others alone.

Three things stand in the way of that. The document may be no object, so that no setting is found
in it and none can be put into it. It may be nested more deeply than can be read, and such a
document is not taken for one that is not well formed. And the new text may not get into the file,
or only the beginning of it. The first is a matter of the file alone, the others of the host as
well (`Storage`).
-/

namespace DeskCalc.Settings

/-! ## Storage -/

/-- How the host writes the file. An error is the text that the host gives for it. -/
inductive Writing where
  /-- The file holds the new text. -/
  | done
  /-- The file cannot be opened and stays as it is. -/
  | refused (error : String)
  /-- Writing breaks off, and the file holds so many characters of the new text. -/
  | interrupted (error : String) (length : Nat)
  deriving DecidableEq, Repr

/-- How the host reads and writes the file. It does not have to stay the same from one moment to
the next. -/
structure Storage where
  /-- The arrays and objects that may be open at once in a document that is read. They take up
  room on the stack of calls, beside the calls that have led there. -/
  depth : Nat
  /-- There is room for the fields of an object. -/
  depth_pos : 0 < depth
  writing : Writing
  deriving DecidableEq, Repr

namespace Storage

/-- A stack of a thousand calls of which few are in use, and a file that can be written. -/
def ordinary : Storage := ⟨990, by decide, .done⟩

end Storage

/-! ## Failures -/

/-- Why no setting is found in a file. -/
inductive ReadFailure where
  /-- The document is no object. -/
  | notAnObject (document : Json)
  /-- The document opens one array or object too many inside each other. -/
  | tooDeep (opened : Json.Container)

/-- Why settings are not saved. -/
inductive SaveFailure where
  /-- The settings that are in the file cannot be read. -/
  | unread (failure : ReadFailure)
  /-- The file is not written. -/
  | unwritten (error : String)

/-- The name of the type of a document. -/
def typeName : Json → String
  | .null => "NoneType"
  | .bool _ => "bool"
  | .int _ => "int"
  | .float _ => "float"
  | .string _ => "str"
  | .array _ => "list"
  | .object _ => "dict"

/-- The wording of a failure to read, the given operation being the one that needs an object. -/
def ReadFailure.message (operation : String) : ReadFailure → String
  | .notAnObject document =>
      "'" ++ typeName document ++ "' object has no attribute '" ++ operation ++ "'"
  | .tooDeep opened => opened.tooDeepMessage

/-- The wording of a failure to save. -/
def SaveFailure.message : SaveFailure → String
  | .unread failure => failure.message "update"
  | .unwritten error => error

/-! ## Reading -/

/-- The name of the setting for dark mode. -/
def darkModeKey : String := "dark_mode"

/-- The value of a file's document; `none` is a file that is missing or cannot be opened. -/
def load (depth : Nat) (file : Option String) : Except ReadFailure Json :=
  match file with
  | none => .ok (.object [])
  | some text =>
      match Json.read (some depth) text.toList with
      | .ok document => .ok document
      | .error .malformed => .ok (.object [])
      | .error (.tooDeep opened) => .error (.tooDeep opened)

/-- The settings in a file. -/
def read (depth : Nat) (file : Option String) : Except ReadFailure (List (String × Json)) :=
  match load depth file with
  | .ok (.object fields) => .ok fields
  | .ok document => .error (.notAnObject document)
  | .error failure => .error failure

/-- Dark mode as the settings have it, which may be any value. Without a setting it is off. -/
def darkModeOf (fields : List (String × Json)) : Json :=
  (fields.lookup darkModeKey).getD (.bool false)

/-- Dark mode as the file has it. -/
def darkMode (depth : Nat) (file : Option String) : Except ReadFailure Json :=
  (read depth file).map darkModeOf

/-! ## Writing -/

/-- The file after a text has been written into it, whether that went well or not. -/
def Storage.write (storage : Storage) (file : Option String) (text : String) :
    Option String × Except SaveFailure Unit :=
  match storage.writing with
  | .done => (some text, .ok ())
  | .refused error => (file, .error (.unwritten error))
  | .interrupted error length =>
      (some (String.ofList (text.toList.take length)), .error (.unwritten error))

/-- The text of a file with new settings among the old ones. -/
def savedText (old new : List (String × Json)) : String :=
  Json.toIndented (.object (Json.putAll old new))

/-- The file after settings have been saved into it, whether that went well or not. -/
def save (storage : Storage) (file : Option String) (new : List (String × Json)) :
    Option String × Except SaveFailure Unit :=
  match read storage.depth file with
  | .ok old => storage.write file (savedText old new)
  | .error failure => (file, .error (.unread failure))

end DeskCalc.Settings
