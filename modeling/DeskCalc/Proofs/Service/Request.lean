import DeskCalc.Service.Endpoint

set_option autoImplicit false

/-! # Edits described by objects

A request may describe an edit by an object with a kind and a value. `Json.Describes` says when
an object describes an edit; it describes at most one, and reading the object finds that one.
-/

namespace DeskCalc

namespace Edit

theorem withValue_withValue (edit : Edit) (value value' : String) :
    (edit.withValue value).withValue value' = edit.withValue value' := by
  cases edit <;> rfl

theorem ofKind?_kind_eq (edit : Edit) : ofKind? edit.kind = some (edit.withValue "") := by
  cases edit <;> rfl

/-- The edits are found by their kinds, without values. -/
theorem ofKind?_eq_some_iff {kind : String} {edit : Edit} :
    ofKind? kind = some edit ↔ edit.kind = kind ∧ edit.withValue "" = edit := by
  constructor
  · intro h
    have hkind := kind_of_ofKind? h
    refine ⟨hkind, ?_⟩
    rw [← hkind, ofKind?_kind_eq] at h
    exact Option.some.inj h
  · rintro ⟨rfl, hvalue⟩
    rw [ofKind?_kind_eq, hvalue]

end Edit

/-- The object describes the edit: it names the kind of the edit, and the value if the edit uses
one. A value that is not given is empty, and one that is not used has to be a text as well. -/
def Json.Describes (object : Json) (edit : Edit) : Prop :=
  object.get? "kind" = some (.string edit.kind) ∧
    ∃ value, (object.get? "value").getD (.string "") = .string value ∧
      edit.withValue value = edit

namespace Service

theorem readEditObject_eq_ok_iff {fields : List (String × Json)} {edit : Edit} :
    readEditObject fields = .ok edit ↔ (Json.object fields).Describes edit := by
  constructor
  · intro h
    unfold readEditObject at h
    dsimp only at h
    split at h
    · rename_i name hname
      have hkind : fields.lookup "kind" = some (.string name) := by
        cases hfield : fields.lookup "kind" with
        | none =>
            rw [hfield] at hname
            cases hname
        | some field =>
            rw [hfield] at hname
            exact congrArg some hname
      split at h
      · cases h
      · rename_i found hfound
        obtain ⟨rfl, hbare⟩ := Edit.ofKind?_eq_some_iff.1 hfound
        split at h
        · rename_i hvalue
          obtain rfl := Except.ok.inj h
          have hget : (Json.object fields).get? "value" = none := hvalue
          exact ⟨hkind, "", by rw [hget]; rfl, hbare⟩
        · rename_i value hvalue
          obtain rfl := Except.ok.inj h
          have hget : (Json.object fields).get? "value" = some (.string value) := hvalue
          refine ⟨?_, value, by rw [hget]; rfl, Edit.withValue_withValue found value value⟩
          rw [Edit.kind_withValue]
          exact hkind
        · cases h
    · cases h
  · rintro ⟨hkind, value, hvalue, hedit⟩
    have hkind' : fields.lookup "kind" = some (.string edit.kind) := hkind
    have hvalue' : (fields.lookup "value").getD (.string "") = .string value := hvalue
    unfold readEditObject
    rw [hkind']
    dsimp only [Option.getD_some]
    rw [Edit.ofKind?_kind_eq]
    dsimp only
    cases hfield : fields.lookup "value" with
    | none =>
        rw [hfield] at hvalue'
        obtain rfl : "" = value := Json.string.inj hvalue'
        exact congrArg Except.ok hedit
    | some field =>
        rw [hfield] at hvalue'
        obtain rfl : field = .string value := hvalue'
        show Except.ok ((edit.withValue "").withValue value) = _
        rw [Edit.withValue_withValue, hedit]

end Service

end DeskCalc
