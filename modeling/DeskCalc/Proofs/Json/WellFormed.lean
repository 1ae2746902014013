import Mathlib.Data.List.Nodup
import DeskCalc.Json.Reader

set_option autoImplicit false

/-! # The values that can be read

A value that has been read has three properties that not every value has: no object in it has two
fields of one name, every integer in it has at most 4300 digits, and its arrays and objects are not
nested more deeply than the limit. All are kept from lexeme to lexeme: the scanner puts out only
integers of that length (`Lexeme.soundStep_step`), and the reader puts every field into its object
by its name and opens arrays and objects only where there is room (`Reader.WellFormed.of_step`). So
whatever is read is well formed (`wellFormed_of_read`).
-/

namespace DeskCalc.Json

/-- No object has two fields of one name, no integer has too many digits, and no more arrays and
objects stand inside each other than there is room for. -/
inductive WellFormed : Nat → Json → Prop where
  | null {room : Nat} : WellFormed room .null
  | bool {room : Nat} (b : Bool) : WellFormed room (.bool b)
  | int {room : Nat} {n : Int}
      (h : (Nat.toDigits 10 n.natAbs).length ≤ Lexeme.Numeral.maxLength) : WellFormed room (.int n)
  | float {room : Nat} (x : Double) : WellFormed room (.float x)
  | string {room : Nat} (s : String) : WellFormed room (.string s)
  | array {room : Nat} {items : List Json} (h : ∀ item ∈ items, WellFormed room item) :
      WellFormed (room + 1) (.array items)
  | object {room : Nat} {fields : List (String × Json)} (hkeys : (fields.map (·.1)).Nodup)
      (h : ∀ field ∈ fields, WellFormed room field.2) : WellFormed (room + 1) (.object fields)

theorem wellFormed_array_nil (room : Nat) : WellFormed (room + 1) (.array []) :=
  .array fun _ hitem => nomatch hitem

theorem wellFormed_object_nil (room : Nat) : WellFormed (room + 1) (.object []) :=
  .object List.nodup_nil fun _ hfield => nomatch hfield

/-- More room does no harm. -/
theorem WellFormed.mono {value : Json} {room more : Nat} (h : WellFormed room value)
    (hle : room ≤ more) : WellFormed more value := by
  induction h generalizing more with
  | null => exact .null
  | bool b => exact .bool b
  | int hn => exact .int hn
  | float x => exact .float x
  | string s => exact .string s
  | array _ ih =>
      obtain ⟨more, rfl⟩ := Nat.exists_eq_add_one_of_ne_zero (n := more) (by omega)
      exact .array fun item hitem => ih item hitem (by omega)
  | object hkeys _ ih =>
      obtain ⟨more, rfl⟩ := Nat.exists_eq_add_one_of_ne_zero (n := more) (by omega)
      exact .object hkeys fun field hfield => ih field hfield (by omega)

/-! ## Fields -/

theorem mem_put {key : String} {value : Json} {fields : List (String × Json)}
    {field : String × Json} (h : field ∈ put key value fields) :
    field = (key, value) ∨ field ∈ fields := by
  induction fields with
  | nil => exact .inl (List.mem_singleton.1 h)
  | cons first rest ih =>
      obtain ⟨k, v⟩ := first
      by_cases hk : k = key
      · rw [put, if_pos hk, List.mem_cons] at h
        rw [hk] at h
        exact h.imp id (List.mem_cons_of_mem _)
      · rw [put, if_neg hk, List.mem_cons] at h
        rcases h with rfl | h
        · exact .inr List.mem_cons_self
        · exact (ih h).imp id (List.mem_cons_of_mem _)

/-- An object stays well formed when a well-formed value is put into it. -/
theorem WellFormed.put {room : Nat} {key : String} {value : Json} {fields : List (String × Json)}
    (h : WellFormed (room + 1) (.object fields)) (hvalue : WellFormed room value) :
    WellFormed (room + 1) (.object (Json.put key value fields)) := by
  cases h with
  | object hkeys hfields =>
      refine .object ?_ fun field hfield => ?_
      · rw [keys_put]
        split
        · exact hkeys
        · rename_i hnew
          exact hkeys.append (List.nodup_singleton key) (by simpa using hnew)
      · rcases mem_put hfield with rfl | hold
        · exact hvalue
        · exact hfields field hold

namespace Lexeme

/-! ## The scanner -/

theorem length_toDigits_le {n k : Nat} (hk : 0 < k) (h : n < pow10 k) :
    (Nat.toDigits 10 n).length ≤ k :=
  (Nat.length_toDigits_le_iff (by omega) hk).2 h

/-- The digits of an integer are no more than have been counted. -/
def Numeral.Bounded (n : Numeral) : Prop :=
  n.stage = .zero ∨ n.stage = .whole → n.digits < pow10 n.length

theorem Numeral.digitValue_lt {c : Char} (h : c.isDigit = true) : digitValue c < 10 := by
  have hbounds : 48 ≤ c.toNat ∧ c.toNat ≤ 57 := by
    simpa [Char.isDigit, UInt32.le_iff_toNat_le] using h
  have hzero : '0'.toNat = 48 := rfl
  unfold digitValue
  omega

theorem Numeral.bounded_begin (n : Numeral) {c : Char} (h : c.isDigit = true) :
    (n.begin c).Bounded := fun _ => by
  have hten : pow10 1 = 10 := rfl
  have hlt := digitValue_lt h
  rwa [← hten] at hlt

theorem Numeral.Bounded.push? {n next : Numeral} {c : Char} (h : n.Bounded)
    (hpush : n.push? c = some next) : next.Bounded := by
  obtain ⟨stage, negative, digits, length, places, exponentNegative, exponent⟩ := n
  unfold Numeral.push? at hpush
  cases stage with
  | minus =>
      obtain ⟨hdigit, hnext⟩ := Option.ite_none_right_eq_some.1 hpush
      obtain rfl := Option.some.inj hnext
      exact bounded_begin _ hdigit
  | whole =>
      dsimp only at hpush
      split_ifs at hpush with hdigit hpoint hletter
      · have hlt := digitValue_lt hdigit
        have hdigits : digits < pow10 length := h (.inr rfl)
        obtain rfl := Option.some.inj hpush
        intro _
        show 10 * digits + digitValue c < pow10 (length + 1)
        rw [pow10_succ]
        omega
      · obtain rfl := Option.some.inj hpush
        rintro (hstage | hstage) <;> cases hstage
      · obtain rfl := Option.some.inj hpush
        rintro (hstage | hstage) <;> cases hstage
  | zero | point | fraction | letter | letterSign | exponent =>
      dsimp only at hpush
      split_ifs at hpush <;> (obtain rfl := Option.some.inj hpush) <;>
        rintro (hstage | hstage) <;> cases hstage

/-- What a number means is well formed. -/
theorem Numeral.Bounded.value? {n : Numeral} {value : Json} (h : n.Bounded)
    (hvalue : n.value? = some value) : WellFormed 0 value := by
  obtain ⟨stage, negative, digits, length, places, exponentNegative, exponent⟩ := n
  have hint (hstage : stage = .zero ∨ stage = .whole) (hlength : length ≤ maxLength) :
      WellFormed 0 (.int (if negative then -(digits : Int) else digits)) := by
    have habs : (if negative then -(digits : Int) else digits).natAbs = digits := by
      split <;> simp
    refine .int (length_toDigits_le (by decide) ?_)
    rw [habs]
    exact Nat.lt_of_lt_of_le (h hstage) (pow10_le_pow10 hlength)
  unfold Numeral.value? at hvalue
  cases stage with
  | zero =>
      obtain ⟨hlength, hsome⟩ := Option.ite_none_right_eq_some.1 hvalue
      obtain rfl := Option.some.inj hsome
      exact hint (.inl rfl) hlength
  | whole =>
      obtain ⟨hlength, hsome⟩ := Option.ite_none_right_eq_some.1 hvalue
      obtain rfl := Option.some.inj hsome
      exact hint (.inr rfl) hlength
  | fraction | exponent =>
      obtain rfl := Option.some.inj hvalue
      exact .float _
  | minus | point | letter | letterSign => cases hvalue

/-- Only well-formed values are put out. -/
def WellFormed : Lexeme → Prop
  | .scalar value => value.WellFormed 0
  | _ => True

/-- A word that has been begun means a well-formed value, and a number is as long as it is. -/
def Mode.WellFormed : Mode → Prop
  | .word _ meaning => meaning.WellFormed 0
  | .number n => n.Bounded
  | _ => True

/-- A step of the scanner, if it succeeds, puts out well-formed values and goes on in such a
mode. -/
def SoundStep (result : Step) : Prop :=
  ∀ out next, result = .ok (out, next) → (∀ lexeme ∈ out, lexeme.WellFormed) ∧ next.WellFormed

theorem soundStep_ok {out : List Lexeme} {next : Mode} (hout : ∀ lexeme ∈ out, lexeme.WellFormed)
    (hnext : next.WellFormed) : SoundStep (.ok (out, next)) := by
  intro out' next' h
  obtain ⟨rfl, rfl⟩ := Prod.mk.inj (Except.ok.inj h)
  exact ⟨hout, hnext⟩

/-- A step that puts out nothing. -/
theorem soundStep_next {next : Mode} (hnext : next.WellFormed) : SoundStep (.ok ([], next)) :=
  soundStep_ok (fun _ h => nomatch h) hnext

theorem soundStep_malformed : SoundStep malformed := nofun

theorem soundStep_ite {p : Prop} [Decidable p] {first second : Step} (hfirst : p → SoundStep first)
    (hsecond : SoundStep second) : SoundStep (if p then first else second) := by
  by_cases h : p
  · rw [if_pos h]
    exact hfirst h
  · rwa [if_neg h]

theorem soundStep_betweenStep (c : Char) : SoundStep (betweenStep c) := by
  have hmark (lexeme : Lexeme) (h : lexeme.WellFormed) : SoundStep (.ok ([lexeme], .between)) :=
    soundStep_ok (fun other hother => List.mem_singleton.1 hother ▸ h) trivial
  have hsigned : (Numeral.signed true).Bounded := by
    rintro (hstage | hstage) <;> cases hstage
  unfold betweenStep
  refine soundStep_ite (fun _ => soundStep_next trivial) ?_
  refine soundStep_ite (fun _ => hmark .openArray trivial) ?_
  refine soundStep_ite (fun _ => hmark .closeArray trivial) ?_
  refine soundStep_ite (fun _ => hmark .openObject trivial) ?_
  refine soundStep_ite (fun _ => hmark .closeObject trivial) ?_
  refine soundStep_ite (fun _ => hmark .comma trivial) ?_
  refine soundStep_ite (fun _ => hmark .colon trivial) ?_
  refine soundStep_ite (fun _ => soundStep_next trivial) ?_
  refine soundStep_ite (fun _ => soundStep_next hsigned) ?_
  refine soundStep_ite (fun h => soundStep_next (Numeral.bounded_begin _ h)) ?_
  refine soundStep_ite (fun _ => soundStep_next Json.WellFormed.null) ?_
  refine soundStep_ite (fun _ => soundStep_next (Json.WellFormed.bool true)) ?_
  refine soundStep_ite (fun _ => soundStep_next (Json.WellFormed.bool false)) ?_
  refine soundStep_ite (fun _ => soundStep_next (Json.WellFormed.float _)) ?_
  refine soundStep_ite (fun _ => soundStep_next (Json.WellFormed.float _)) ?_
  exact soundStep_malformed

/-- The character after a number ends it, or begins the word of an infinity. -/
theorem soundStep_number {n : Numeral} (h : n.Bounded) (c : Char) :
    SoundStep (step (.number n) c) := by
  simp only [step]
  cases hpush : n.push? c with
  | some more =>
      have hmore : (Mode.number more).WellFormed := h.push? hpush
      exact soundStep_next hmore
  | none =>
      have hword : (Mode.word ['n', 'f', 'i', 'n', 'i', 't', 'y']
          (.float (.infinite true))).WellFormed := Json.WellFormed.float _
      refine soundStep_ite (fun _ => soundStep_next hword) ?_
      cases hvalue : n.value? with
      | none => exact soundStep_malformed
      | some value =>
          cases hbetween : betweenStep c with
          | error fault => exact soundStep_malformed
          | ok result =>
              obtain ⟨out, next⟩ := result
              obtain ⟨hout, hnext⟩ := soundStep_betweenStep c out next hbetween
              refine soundStep_ok (fun lexeme hlexeme => ?_) hnext
              rcases List.mem_cons.1 hlexeme with rfl | hlater
              · exact h.value? hvalue
              · exact hout lexeme hlater

theorem soundStep_step {mode : Mode} (h : mode.WellFormed) (c : Char) :
    SoundStep (step mode c) := by
  cases mode with
  | between => exact soundStep_betweenStep c
  | number n => exact soundStep_number h c
  | word missing meaning =>
      cases missing with
      | nil => exact soundStep_malformed
      | cons expected rest =>
          have hmeaning : ∀ lexeme ∈ [scalar meaning], lexeme.WellFormed :=
            fun lexeme hlexeme => List.mem_singleton.1 hlexeme ▸ h
          unfold step
          refine soundStep_ite (fun _ => ?_) soundStep_malformed
          exact soundStep_ite (fun _ => soundStep_ok hmeaning trivial) (soundStep_next h)
  | string points =>
      unfold step
      refine soundStep_ite (fun _ => soundStep_ok (fun lexeme hlexeme => ?_) trivial) ?_
      · rw [List.mem_singleton.1 hlexeme]
        trivial
      refine soundStep_ite (fun _ => soundStep_next trivial) ?_
      exact soundStep_ite (fun _ => soundStep_malformed) (soundStep_next trivial)
  | escape points =>
      unfold step
      refine soundStep_ite (fun _ => soundStep_next trivial) ?_
      cases escaped? c with
      | none => exact soundStep_malformed
      | some meant => exact soundStep_next trivial
  | unicode points count value =>
      unfold step
      cases Digits.hexValue? c with
      | none => exact soundStep_malformed
      | some digit =>
          exact soundStep_ite (fun _ => soundStep_next trivial) (soundStep_next trivial)

theorem wellFormed_of_finish {mode : Mode} {out : List Lexeme} (h : mode.WellFormed)
    (hfinish : finish mode = .ok out) : ∀ lexeme ∈ out, lexeme.WellFormed := by
  cases mode with
  | between =>
      obtain rfl := Except.ok.inj hfinish
      exact fun _ hlexeme => nomatch hlexeme
  | number n =>
      simp only [finish] at hfinish
      cases hvalue : n.value? with
      | none =>
          rw [hvalue] at hfinish
          cases hfinish
      | some value =>
          rw [hvalue] at hfinish
          obtain rfl := Except.ok.inj hfinish
          intro lexeme hlexeme
          rw [List.mem_singleton.1 hlexeme]
          exact Numeral.Bounded.value? h hvalue
  | word | string | escape | unicode => cases hfinish

theorem wellFormed_of_scan {mode : Mode} (h : mode.WellFormed) (pos : Nat) (text : List Char) :
    ∀ lexeme ∈ (scanner.scan pos mode text).1, lexeme.WellFormed := by
  induction text generalizing mode pos with
  | nil =>
      intro lexeme hlexeme
      obtain ⟨out, hfinish, hmem⟩ := Scanner.mem_scan_nil hlexeme
      exact wellFormed_of_finish h hfinish lexeme hmem
  | cons c rest ih =>
      intro lexeme hlexeme
      obtain ⟨out, next, hstep, hmem⟩ := Scanner.mem_scan_cons hlexeme
      obtain ⟨hout, hnext⟩ := soundStep_step h c out next hstep
      rcases hmem with hmem | hmem
      · exact hout lexeme hmem
      · exact ih hnext (pos + 1) lexeme hmem

end Lexeme

/-! ## The reader -/

namespace Reader

/-- The arrays and objects of a stack are open inside each other, and there is room for `room`
more. What has been read of each of them is well formed in the room that it has. -/
inductive Open (limit : Nat) : List Frame → Nat → Prop where
  | nil : Open limit [] limit
  | items {stack : List Frame} {room : Nat} {before : List Json} (h : Open limit stack (room + 1))
      (hbefore : ∀ item ∈ before, item.WellFormed room) :
      Open limit (.items before :: stack) room
  | field {stack : List Frame} {room : Nat} {before : List (String × Json)} {key : String}
      (h : Open limit stack (room + 1))
      (hbefore : (Json.object before).WellFormed (room + 1)) :
      Open limit (.field before key :: stack) room

/-- What has been read so far is well formed, and there is room for what is due next. -/
inductive WellFormed (limit : Nat) : Reader → Prop where
  | value {stack : List Frame} {room : Nat} (h : Open limit stack room) :
      WellFormed limit ⟨stack, .value⟩
  | firstItem {stack : List Frame} {room : Nat} (h : Open limit stack (room + 1)) :
      WellFormed limit ⟨.items [] :: stack, .firstItem⟩
  | firstKey {stack : List Frame} {room : Nat} (h : Open limit stack (room + 1)) :
      WellFormed limit ⟨stack, .firstKey⟩
  | key {stack : List Frame} {room : Nat} {before : List (String × Json)}
      (h : Open limit stack (room + 1)) (hbefore : (Json.object before).WellFormed (room + 1)) :
      WellFormed limit ⟨stack, .key before⟩
  | colon {stack : List Frame} {room : Nat} {before : List (String × Json)} {key : String}
      (h : Open limit stack (room + 1)) (hbefore : (Json.object before).WellFormed (room + 1)) :
      WellFormed limit ⟨stack, .colon before key⟩
  | done {stack : List Frame} {room : Nat} {result : Json} (h : Open limit stack room)
      (hresult : result.WellFormed room) : WellFormed limit ⟨stack, .done result⟩

variable {limit room : Nat} {stack : List Frame} {lexeme : Lexeme} {r next : Reader}

theorem Open.length_add (h : Open limit stack room) : stack.length + room = limit := by
  induction h with
  | nil => exact Nat.zero_add limit
  | items _ _ ih | field _ _ ih =>
      rw [List.length_cons]
      omega

theorem Open.items_nil (h : Open limit stack (room + 1)) : Open limit (.items [] :: stack) room :=
  .items h fun _ hitem => nomatch hitem

/-- Where the limit leaves room, there is room for the items of one more array or object. -/
theorem Open.exists_of_hasRoom (h : Open limit stack room) (hroom : hasRoom (some limit) stack) :
    ∃ inside, Open limit stack (inside + 1) := by
  have hlength := h.length_add
  have hlt : stack.length < limit := of_decide_eq_true hroom
  -- A stack shorter than the limit leaves a room that is not zero.
  obtain ⟨inside, rfl⟩ := Nat.exists_eq_add_one_of_ne_zero (n := room) (by omega)
  exact ⟨inside, h⟩

theorem wellFormed_of_beginValue (h : Open limit stack room) (hlexeme : lexeme.WellFormed)
    (hbegin : beginValue (some limit) stack lexeme = .ok next) : next.WellFormed limit := by
  cases lexeme with
  | scalar value =>
      obtain rfl := Except.ok.inj hbegin
      have hvalue : value.WellFormed 0 := hlexeme
      exact .done h (hvalue.mono room.zero_le)
  | string s =>
      obtain rfl := Except.ok.inj hbegin
      exact .done h (.string s)
  | openArray =>
      obtain ⟨hroom, rfl⟩ := enter_eq_ok_iff.1 hbegin
      obtain ⟨inside, hinside⟩ := h.exists_of_hasRoom hroom
      exact .firstItem hinside
  | openObject =>
      obtain ⟨hroom, rfl⟩ := enter_eq_ok_iff.1 hbegin
      obtain ⟨inside, hinside⟩ := h.exists_of_hasRoom hroom
      exact .firstKey hinside
  | closeArray | closeObject | comma | colon => cases hbegin

theorem wellFormed_of_afterValue {value : Json} (h : Open limit stack room)
    (hvalue : value.WellFormed room) (hafter : afterValue stack value lexeme = .ok next) :
    next.WellFormed limit := by
  cases h with
  | nil => cases hafter
  | items h hbefore =>
      rename_i before
      have hitems : ∀ item ∈ value :: before, item.WellFormed room := fun item hitem =>
        (List.mem_cons.1 hitem).elim (fun heq => heq ▸ hvalue) (hbefore item)
      cases lexeme with
      | comma =>
          obtain rfl := Except.ok.inj hafter
          exact .value (.items h hitems)
      | closeArray =>
          obtain rfl := Except.ok.inj hafter
          exact .done h (.array fun item hitem => hitems item (List.mem_reverse.1 hitem))
      | scalar | string | openArray | openObject | closeObject | colon => cases hafter
  | field h hbefore =>
      cases lexeme with
      | comma =>
          obtain rfl := Except.ok.inj hafter
          exact .key h (hbefore.put hvalue)
      | closeObject =>
          obtain rfl := Except.ok.inj hafter
          exact .done h (hbefore.put hvalue)
      | scalar | string | openArray | openObject | closeArray | colon => cases hafter

theorem WellFormed.of_step (hr : r.WellFormed limit) (hlexeme : lexeme.WellFormed)
    (hstep : r.step (some limit) lexeme = .ok next) : next.WellFormed limit := by
  cases hr with
  | value h => exact wellFormed_of_beginValue h hlexeme hstep
  | firstItem h =>
      cases lexeme with
      | closeArray =>
          obtain rfl := Except.ok.inj hstep
          exact .done h (wellFormed_array_nil _)
      | scalar | string | openArray | openObject | closeObject | comma | colon =>
          exact wellFormed_of_beginValue h.items_nil hlexeme hstep
  | firstKey h =>
      cases lexeme with
      | closeObject =>
          obtain rfl := Except.ok.inj hstep
          exact .done h (wellFormed_object_nil _)
      | string key =>
          obtain rfl := Except.ok.inj hstep
          exact .colon h (wellFormed_object_nil _)
      | scalar | openArray | closeArray | openObject | comma | colon => cases hstep
  | key h hbefore =>
      cases lexeme with
      | string key =>
          obtain rfl := Except.ok.inj hstep
          exact .colon h hbefore
      | scalar | openArray | closeArray | openObject | closeObject | comma | colon => cases hstep
  | colon h hbefore =>
      cases lexeme with
      | colon =>
          obtain rfl := Except.ok.inj hstep
          exact .value (.field h hbefore)
      | scalar | string | openArray | closeArray | openObject | closeObject | comma => cases hstep
  | done h hresult => exact wellFormed_of_afterValue h hresult hstep

theorem WellFormed.of_run {lexemes : List Lexeme} (hr : r.WellFormed limit)
    (hlexemes : ∀ lexeme ∈ lexemes, lexeme.WellFormed)
    (hrun : r.run (some limit) lexemes = .ok next) : next.WellFormed limit := by
  induction lexemes generalizing r with
  | nil =>
      obtain rfl := Except.ok.inj hrun
      exact hr
  | cons lexeme rest ih =>
      rw [run] at hrun
      cases hstep : r.step (some limit) lexeme with
      | error fault =>
          rw [hstep] at hrun
          cases hrun
      | ok after =>
          rw [hstep] at hrun
          exact ih (hr.of_step (hlexemes lexeme List.mem_cons_self) hstep)
            (fun other hother => hlexemes other (List.mem_cons_of_mem lexeme hother)) hrun

/-- A document ends when nothing is open, so its value has all the room there is. -/
theorem WellFormed.value? {value : Json} (hr : r.WellFormed limit)
    (hvalue : r.value? = some value) : value.WellFormed limit := by
  cases hr with
  | done h hresult =>
      cases h with
      | nil =>
          obtain rfl := Option.some.inj hvalue
          exact hresult
      | items | field => cases hvalue
  | value h | firstKey h | key h | colon h => cases h <;> cases hvalue
  | firstItem => cases hvalue

end Reader

/-- Every value that is read is well formed in the room of the limit. -/
theorem wellFormed_of_read {limit : Nat} {text : List Char} {value : Json}
    (h : read (some limit) text = .ok value) : value.WellFormed limit := by
  have hbetween : Lexeme.Mode.between.WellFormed := trivial
  have hlexemes : ∀ lexeme ∈ (lexemes text).1, lexeme.WellFormed :=
    Lexeme.wellFormed_of_scan hbetween 0 text
  have hstart : Reader.start.WellFormed limit := .value .nil
  unfold read at h
  dsimp only at h
  cases hrun : Reader.start.run (some limit) (lexemes text).1 with
  | error fault =>
      rw [hrun] at h
      cases h
  | ok r =>
      rw [hrun] at h
      dsimp only at h
      split at h
      · rename_i hvalue
        obtain rfl := Except.ok.inj h
        exact (hstart.of_run hlexemes hrun).value? hvalue
      · cases h

end DeskCalc.Json
