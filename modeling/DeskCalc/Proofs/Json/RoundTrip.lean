import DeskCalc.Proofs.Json.Lexing
import DeskCalc.Proofs.Json.WellFormed

set_option autoImplicit false

/-! # Writing and reading a document

A well-formed value that is written with one item per line is read back as the same value, under
every limit that has room for it (`read_toIndented`). The lexemes of a value (`lexemesOf`) stand
between the two: the scanner cuts the written value into them (`lexes_print`), and the reader puts
them together to the value (`run_lexemesOf`). Both follow the value, under its array or object.

Room matters: under every limit there is a text that is nested too deeply (`read_replicate`).
-/

namespace DeskCalc.Json

/-! ## The lexemes of a value -/

mutual

/-- The lexemes of a value. -/
def lexemesOf : Json → List Lexeme
  | .null => [.scalar .null]
  | .bool b => [.scalar (.bool b)]
  | .int n => [.scalar (.int n)]
  | .float x => [.scalar (.float x)]
  | .string s => [.string s]
  | .array [] => [.openArray, .closeArray]
  | .array (item :: items) => .openArray :: (lexemesOf item ++ (itemLexemes items ++ [.closeArray]))
  | .object [] => [.openObject, .closeObject]
  | .object ((key, value) :: fields) =>
      .openObject :: .string key :: .colon ::
        (lexemesOf value ++ (fieldLexemes fields ++ [.closeObject]))

/-- The lexemes of the items of an array after the first. -/
def itemLexemes : List Json → List Lexeme
  | [] => []
  | item :: items => .comma :: (lexemesOf item ++ itemLexemes items)

/-- The lexemes of the fields of an object after the first. -/
def fieldLexemes : List (String × Json) → List Lexeme
  | [] => []
  | (key, value) :: fields =>
      .comma :: .string key :: .colon :: (lexemesOf value ++ fieldLexemes fields)

end

/-! ## Scanning a written value -/

namespace Lexeme

/-- The scanner cuts a written value, whatever may follow it, into its lexemes. -/
def LexesPrint (value : Json) : Prop :=
  ∀ depth text lexemes, EndsValue text → Lexes .between text lexemes →
    Lexes .between (print .indented depth value ++ text) (lexemesOf value ++ lexemes)

theorem endsValue_newLine (depth : Nat) (text : List Char) : EndsValue (newLine depth ++ text) := by
  rintro c hc
  obtain rfl : '\n' = c := Option.some.inj hc
  exact .inr rfl

/-- A value in an array or object is followed by the next one or by the last line. -/
theorem endsValue_items (depth depth' : Nat) (items : List Json) (text : List Char) :
    EndsValue (printItems .indented depth items ++ (newLine depth' ++ text)) := by
  cases items with
  | nil => exact endsValue_newLine depth' text
  | cons item items =>
      rintro c hc
      obtain rfl : ',' = c := Option.some.inj hc
      exact .inl rfl

@[inherit_doc endsValue_items]
theorem endsValue_fields (depth depth' : Nat) (fields : List (String × Json)) (text : List Char) :
    EndsValue (printFields .indented depth fields ++ (newLine depth' ++ text)) := by
  cases fields with
  | nil => exact endsValue_newLine depth' text
  | cons field fields =>
      rintro c hc
      obtain rfl : ',' = c := Option.some.inj hc
      exact .inl rfl

theorem lexes_printItems {items : List Json} (hitems : ∀ item ∈ items, LexesPrint item)
    (depth depth' : Nat) {text : List Char} {lexemes : List Lexeme}
    (h : Lexes .between text lexemes) :
    Lexes .between (printItems .indented depth items ++ (newLine depth' ++ text))
      (itemLexemes items ++ lexemes) := by
  induction items with
  | nil => exact h.newLine depth'
  | cons item rest ih =>
      have hrest := ih fun other hother => hitems other (List.mem_cons_of_mem item hother)
      have hitem := hitems item List.mem_cons_self depth _ _
        (endsValue_items depth depth' rest text) hrest
      have hcomma := (hitem.newLine depth).mark ',' .comma rfl
      simpa [printItems, itemLexemes, Style.indented, Style.wire] using hcomma

/-- The name of a field and the colon after it. -/
theorem Lexes.key (key : String) {text : List Char} {lexemes : List Lexeme}
    (h : Lexes .between text lexemes) :
    Lexes .between (documentString key.toList ++ (':' :: ' ' :: text))
      (.string key :: .colon :: lexemes) := by
  have hblank : Lexes .between (' ' :: text) lexemes := h.cons rfl
  exact (hblank.mark ':' .colon rfl).string key

theorem lexes_printFields {fields : List (String × Json)}
    (hfields : ∀ field ∈ fields, LexesPrint field.2) (depth depth' : Nat) {text : List Char}
    {lexemes : List Lexeme} (h : Lexes .between text lexemes) :
    Lexes .between (printFields .indented depth fields ++ (newLine depth' ++ text))
      (fieldLexemes fields ++ lexemes) := by
  induction fields with
  | nil => exact h.newLine depth'
  | cons field rest ih =>
      obtain ⟨key, value⟩ := field
      have hrest := ih fun other hother => hfields other (List.mem_cons_of_mem _ hother)
      have hvalue := hfields (key, value) List.mem_cons_self depth _ _
        (endsValue_fields depth depth' rest text) hrest
      have hcomma := ((hvalue.key key).newLine depth).mark ',' .comma rfl
      simpa [printFields, fieldLexemes, Style.indented, Style.wire] using hcomma

theorem lexesPrint_word {value : Json} {first : Char} {missing : List Char}
    (hprint : ∀ depth, print .indented depth value = first :: missing)
    (hlexemes : lexemesOf value = [.scalar value]) (hne : missing ≠ [])
    (hstep : betweenStep first = .ok ([], .word missing value)) : LexesPrint value := by
  intro depth text lexemes _ h
  rw [hprint, hlexemes]
  exact (h.word missing value hne).cons hstep

/-- A written value is cut into its lexemes. -/
theorem lexes_print {room : Nat} {value : Json} (hvalue : value.WellFormed room) :
    LexesPrint value := by
  induction hvalue with
  | null => exact lexesPrint_word (fun _ => rfl) rfl (List.cons_ne_nil _ _) rfl
  | bool b =>
      cases b with
      | false => exact lexesPrint_word (fun _ => rfl) rfl (List.cons_ne_nil _ _) rfl
      | true => exact lexesPrint_word (fun _ => rfl) rfl (List.cons_ne_nil _ _) rfl
  | int hn => exact fun _ _ _ hends h => h.int hn hends
  | float x => exact fun _ _ _ hends h => h.float x hends
  | string s => exact fun _ _ _ _ h => h.string s
  | @array _ items _ ih =>
      intro depth text lexemes _ h
      cases items with
      | nil =>
          have hclose := h.mark ']' .closeArray rfl
          exact hclose.mark '[' .openArray rfl
      | cons item rest =>
          have hclose := h.mark ']' .closeArray rfl
          have hrest := lexes_printItems
            (fun other hother => ih other (List.mem_cons_of_mem item hother)) (depth + 1) depth
            hclose
          have hitem := ih item List.mem_cons_self (depth + 1) _ _
            (endsValue_items (depth + 1) depth rest _) hrest
          have hopen := (hitem.newLine (depth + 1)).mark '[' .openArray rfl
          simpa [print, lexemesOf, Style.indented, Style.wire] using hopen
  | @object _ fields _ _ ih =>
      intro depth text lexemes _ h
      cases fields with
      | nil =>
          have hclose := h.mark '\x7d' .closeObject rfl
          exact hclose.mark '\x7b' .openObject rfl
      | cons field rest =>
          obtain ⟨key, value⟩ := field
          have hclose := h.mark '\x7d' .closeObject rfl
          have hrest := lexes_printFields
            (fun other hother => ih other (List.mem_cons_of_mem _ hother)) (depth + 1) depth hclose
          have hvalue := ih (key, value) List.mem_cons_self (depth + 1) _ _
            (endsValue_fields (depth + 1) depth rest _) hrest
          have hopen := ((hvalue.key key).newLine (depth + 1)).mark '\x7b' .openObject rfl
          simpa [print, lexemesOf, Style.indented, Style.wire] using hopen

end Lexeme

/-! ## Reading the lexemes of a value -/

/-- A field with a new name goes last. -/
theorem put_of_not_mem {key : String} (value : Json) {fields : List (String × Json)}
    (h : key ∉ fields.map (·.1)) : put key value fields = fields ++ [(key, value)] := by
  induction fields with
  | nil => rfl
  | cons first rest ih =>
      obtain ⟨k, v⟩ := first
      rw [List.map_cons, List.mem_cons, not_or] at h
      rw [put, if_neg (Ne.symm h.1), ih h.2]
      rfl

/-- Fields of different names are added in their order. -/
theorem putAll_of_nodup {old new : List (String × Json)}
    (h : ((old ++ new).map (·.1)).Nodup) : putAll old new = old ++ new := by
  induction new generalizing old with
  | nil => exact (List.append_nil old).symm
  | cons field rest ih =>
      obtain ⟨key, value⟩ := field
      have hnew : key ∉ old.map (·.1) := by
        rw [List.map_append, List.map_cons] at h
        exact fun hold => (List.nodup_append'.1 h).2.2 hold List.mem_cons_self
      calc putAll old ((key, value) :: rest) = putAll (put key value old) rest := rfl
        _ = putAll (old ++ [(key, value)]) rest := by rw [put_of_not_mem value hnew]
        _ = old ++ (key, value) :: rest := by
          rw [ih (by simpa using h), List.append_assoc, List.singleton_append]

namespace Reader

/-- Where there is room for a value, the reader takes in its lexemes and has then completed it. -/
def RunsLexemes (limit room : Nat) (value : Json) : Prop :=
  ∀ stack lexemes, stack.length + room ≤ limit →
    run (some limit) ⟨stack, .value⟩ (lexemesOf value ++ lexemes) =
      run (some limit) ⟨stack, .done value⟩ lexemes

variable {limit room : Nat}

theorem run_openArray {stack : List Frame} (h : stack.length < limit) (lexemes : List Lexeme) :
    run (some limit) ⟨stack, .value⟩ (.openArray :: lexemes) =
      run (some limit) ⟨.items [] :: stack, .firstItem⟩ lexemes := by
  have hstep : step (some limit) ⟨stack, .value⟩ .openArray =
      .ok ⟨.items [] :: stack, .firstItem⟩ := enter_eq_ok_iff.2 ⟨decide_eq_true h, rfl⟩
  rw [run, hstep]

theorem run_openObject {stack : List Frame} (h : stack.length < limit) (lexemes : List Lexeme) :
    run (some limit) ⟨stack, .value⟩ (.openObject :: lexemes) =
      run (some limit) ⟨stack, .firstKey⟩ lexemes := by
  have hstep : step (some limit) ⟨stack, .value⟩ .openObject = .ok ⟨stack, .firstKey⟩ :=
    enter_eq_ok_iff.2 ⟨decide_eq_true h, rfl⟩
  rw [run, hstep]

/-- No value begins with the end of an array, so it may also be the first item of one. -/
theorem run_firstItem (limit : Option Nat) (value : Json) (stack : List Frame)
    (lexemes : List Lexeme) :
    run limit ⟨stack, .firstItem⟩ (lexemesOf value ++ lexemes) =
      run limit ⟨stack, .value⟩ (lexemesOf value ++ lexemes) := by
  cases value with
  | array items => cases items <;> rfl
  | object fields => cases fields <;> rfl
  | null | bool | int | float | string => rfl

theorem run_itemLexemes {items : List Json} (hitems : ∀ item ∈ items, RunsLexemes limit room item)
    (before : List Json) (value : Json) {stack : List Frame}
    (hroom : stack.length + (room + 1) ≤ limit) (lexemes : List Lexeme) :
    run (some limit) ⟨.items before :: stack, .done value⟩
        (itemLexemes items ++ .closeArray :: lexemes) =
      run (some limit) ⟨stack, .done (.array ((value :: before).reverse ++ items))⟩ lexemes := by
  induction items generalizing before value with
  | nil =>
      rw [List.append_nil]
      rfl
  | cons item rest ih =>
      have hrest := ih (fun other hother => hitems other (List.mem_cons_of_mem item hother))
        (value :: before) item
      have hitem := hitems item List.mem_cons_self (.items (value :: before) :: stack)
        (itemLexemes rest ++ .closeArray :: lexemes) (by rw [List.length_cons]; omega)
      have hsplit : (item :: value :: before).reverse ++ rest =
          (value :: before).reverse ++ item :: rest := by simp
      rw [itemLexemes, List.cons_append, List.append_assoc, ← hsplit, ← hrest, ← hitem]
      rfl

theorem run_fieldLexemes {fields : List (String × Json)}
    (hfields : ∀ field ∈ fields, RunsLexemes limit room field.2) (before : List (String × Json))
    (key : String) (value : Json) {stack : List Frame}
    (hroom : stack.length + (room + 1) ≤ limit) (lexemes : List Lexeme) :
    run (some limit) ⟨.field before key :: stack, .done value⟩
        (fieldLexemes fields ++ .closeObject :: lexemes) =
      run (some limit) ⟨stack, .done (.object (putAll (put key value before) fields))⟩ lexemes := by
  induction fields generalizing before key value with
  | nil => rfl
  | cons field rest ih =>
      obtain ⟨k, v⟩ := field
      have hrest := ih (fun other hother => hfields other (List.mem_cons_of_mem _ hother))
        (put key value before) k v
      have hvalue := hfields (k, v) List.mem_cons_self (.field (put key value before) k :: stack)
        (fieldLexemes rest ++ .closeObject :: lexemes) (by rw [List.length_cons]; omega)
      have hputAll : putAll (put key value before) ((k, v) :: rest) =
          putAll (put k v (put key value before)) rest := rfl
      rw [fieldLexemes, List.cons_append, List.cons_append, List.cons_append, List.append_assoc,
        hputAll, ← hrest, ← hvalue]
      rfl

/-- The lexemes of a value are put together to the value. -/
theorem run_lexemesOf {value : Json} (hvalue : value.WellFormed room) :
    RunsLexemes limit room value := by
  induction hvalue with
  | null | bool | int | float | string => exact fun _ _ _ => rfl
  | @array room items _ ih =>
      intro stack lexemes hroom
      cases items with
      | nil => exact run_openArray (by omega) _
      | cons item rest =>
          have hrest := run_itemLexemes
            (fun other hother => ih other (List.mem_cons_of_mem item hother)) [] item hroom lexemes
          have hitem := ih item List.mem_cons_self (.items [] :: stack)
            (itemLexemes rest ++ .closeArray :: lexemes) (by rw [List.length_cons]; omega)
          have hfirst := run_firstItem (some limit) item (.items [] :: stack)
            (itemLexemes rest ++ .closeArray :: lexemes)
          rw [hitem, hrest] at hfirst
          rw [lexemesOf, List.cons_append, List.append_assoc, List.append_assoc,
            run_openArray (by omega)]
          exact hfirst
  | @object room fields hkeys _ ih =>
      intro stack lexemes hroom
      cases fields with
      | nil => exact run_openObject (by omega) _
      | cons field rest =>
          obtain ⟨key, value⟩ := field
          have hrest := run_fieldLexemes
            (fun other hother => ih other (List.mem_cons_of_mem _ hother)) [] key value hroom
            lexemes
          have hvalue := ih (key, value) List.mem_cons_self (.field [] key :: stack)
            (fieldLexemes rest ++ .closeObject :: lexemes) (by rw [List.length_cons]; omega)
          have hfields : putAll [(key, value)] rest = [(key, value)] ++ rest :=
            putAll_of_nodup hkeys
          rw [hrest, put, hfields] at hvalue
          rw [lexemesOf, List.cons_append, List.cons_append, List.cons_append, List.append_assoc,
            List.append_assoc, run_openObject (by omega)]
          exact hvalue

end Reader

/-! ## Documents -/

theorem lexemes_of_lexes {text : List Char} {known : List Lexeme}
    (h : Lexeme.Lexes .between text known) : lexemes text = (known, none) :=
  Scanner.scan_of_run (h 0)

/-- A well-formed value is read back from the document that is written for it. -/
theorem read_toIndented {limit : Nat} {value : Json} (h : value.WellFormed limit) :
    read (some limit) (toIndented value).toList = .ok value := by
  have hscan := Lexeme.lexes_print h 0 [] [] (fun _ hc => nomatch hc) Lexeme.lexes_nil
  rw [List.append_nil, List.append_nil] at hscan
  have hrun := Reader.run_lexemesOf h [] [] (Nat.zero_add limit).le
  rw [List.append_nil] at hrun
  rw [toIndented, String.toList_ofList, read, lexemes_of_lexes hscan]
  dsimp only
  rw [Reader.start, hrun]
  rfl

/-! ## Brackets that go too far -/

theorem Lexeme.lexes_replicate (n : Nat) :
    Lexes .between (List.replicate n '[') (List.replicate n .openArray) := by
  induction n with
  | zero => exact lexes_nil
  | succ n ih => exact ih.mark '[' .openArray rfl

theorem Reader.run_replicate {limit : Nat} (n : Nat) (stack : List Frame)
    (h : stack.length + n = limit) :
    run (some limit) ⟨stack, .value⟩ (List.replicate (n + 1) .openArray) =
      .error (.tooDeep .array) := by
  induction n generalizing stack with
  | zero =>
      -- As many are open as may be, and one more bracket is due.
      have hfull : hasRoom (some limit) stack = false := decide_eq_false (by omega)
      have hstep : step (some limit) ⟨stack, .value⟩ .openArray = .error (.tooDeep .array) := by
        simp [step, beginValue, enter, hfull]
      rw [List.replicate_succ, run, hstep]
  | succ n ih =>
      have hinside := ih (.items [] :: stack) (by rw [List.length_cons]; omega)
      rw [List.replicate_succ, run_openArray (by omega)]
      exact hinside

/-- One opening bracket more than may be open is too many, whatever the limit is. -/
theorem read_replicate (limit : Nat) :
    read (some limit) (List.replicate (limit + 1) '[') = .error (.tooDeep .array) := by
  have hrun := Reader.run_replicate limit [] (Nat.zero_add limit)
  rw [read, lexemes_of_lexes (Lexeme.lexes_replicate (limit + 1))]
  dsimp only
  rw [Reader.start, hrun]

end DeskCalc.Json
