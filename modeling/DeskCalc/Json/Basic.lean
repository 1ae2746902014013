import DeskCalc.Double.Bits

set_option autoImplicit false

/-! # JSON values

Integers and floating numbers are kept apart, integers are of any size, and an object keeps
the order of its fields. A field that is put into an object takes the place of the field of the
same name, or else the last place.
-/

namespace DeskCalc

/-- A JSON value. -/
inductive Json where
  | null
  | bool (b : Bool)
  | int (n : Int)
  | float (x : Double)
  | string (s : String)
  | array (items : List Json)
  | object (fields : List (String × Json))
  deriving Inhabited

namespace Json

/-- The fields of an object with one more value. -/
def put (key : String) (value : Json) : List (String × Json) → List (String × Json)
  | [] => [(key, value)]
  | (k, v) :: rest => if k = key then (k, value) :: rest else (k, v) :: put key value rest

/-- The first fields with all of the second ones put into them in turn. -/
def putAll (old new : List (String × Json)) : List (String × Json) :=
  new.foldl (fun fields (key, value) => put key value fields) old

/-- The value of a field of an object; other values have no fields. -/
def get? (key : String) : Json → Option Json
  | .object fields => fields.lookup key
  | _ => none

/-- The value counts as true: it is not null, false, zero or empty. -/
def truthy : Json → Bool
  | .null => false
  | .bool b => b
  | .int n => n != 0
  | .float (.finite _ u _) => u != 0
  | .float _ => true
  | .string s => s != ""
  | .array items => !items.isEmpty
  | .object fields => !fields.isEmpty

/-! ## Fields after `put` -/

theorem lookup_put_self (key : String) (value : Json) (fields : List (String × Json)) :
    (put key value fields).lookup key = some value := by
  induction fields with
  | nil => simp [put]
  | cons field rest ih =>
      obtain ⟨k, v⟩ := field
      by_cases h : k = key
      · simp [put, h]
      · have h' : (key == k) = false := by simpa using fun e => h e.symm
        simp [put, h, List.lookup_cons, h', ih]

/-- A known field keeps its place and a new one goes last. -/
theorem keys_put (key : String) (value : Json) (fields : List (String × Json)) :
    (put key value fields).map (·.1) =
      if key ∈ fields.map (·.1) then fields.map (·.1) else fields.map (·.1) ++ [key] := by
  induction fields with
  | nil => simp [put]
  | cons field rest ih =>
      obtain ⟨k, v⟩ := field
      by_cases h : k = key
      · simp [put, h]
      · have h' : key ≠ k := fun e => h e.symm
        simp only [put, h, if_false, List.map_cons, ih, List.mem_cons, h', false_or]
        split <;> simp

end Json

end DeskCalc
