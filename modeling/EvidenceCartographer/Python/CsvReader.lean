import Mathlib.Data.List.TakeWhile

/-! `csv.reader` with its default dialect, over the lines of a file opened with `newline=""`.

    The reader is an automaton over characters that is told where each line ends. `RecordText` is the
    syntax it accepts, without states: fields between commas, each of them bare or in quotes, where a
    quote inside is doubled and what follows the closing quote still belongs to the field. `next_iff`
    says that the first record read from a text is the record that its beginning is written as. -/

namespace EvidenceCartographer.Python.Csv

/-- The states that a dialect without an escape character can be in. -/
inductive State where
  | startRecord | startField | inField | inQuotedField | quoteInQuotedField | eatCrnl
  deriving DecidableEq

/-- A reader in the middle of a record. -/
structure Reader where
  state : State
  field : List Char
  fields : List (List Char)

def Reader.start : Reader := ⟨.startRecord, [], []⟩

/-- `csv.field_size_limit()`. -/
def fieldLimit : Nat := 131072

def tooLarge : String := "field larger than field limit (" ++ toString fieldLimit ++ ")"

def isNewline (c : Char) : Bool := c = '\n' || c = '\r'

namespace Reader

/-- `parse_save_field`. -/
def saveField (r : Reader) (state : State) : Reader := ⟨state, [], r.fields ++ [r.field]⟩

/-- `parse_add_char`, or the text of its `csv.Error`. -/
def addChar (r : Reader) (state : State) (c : Char) : Except String Reader :=
  if fieldLimit ≤ r.field.length then .error tooLarge else .ok ⟨state, r.field ++ [c], r.fields⟩

/-- A character where a field is expected. -/
def startField (r : Reader) (c : Char) : Except String Reader :=
  if isNewline c then .ok (r.saveField .eatCrnl)
  else if c = '"' then .ok { r with state := .inQuotedField }
  else if c = ',' then .ok (r.saveField .startField)
  else r.addChar .inField c

/-- `parse_process_char` for a character of a line. -/
def processChar (r : Reader) (c : Char) : Except String Reader :=
  match r.state with
  | .startRecord => if isNewline c then .ok { r with state := .eatCrnl } else r.startField c
  | .startField => r.startField c
  | .inField =>
    if isNewline c then .ok (r.saveField .eatCrnl)
    else if c = ',' then .ok (r.saveField .startField)
    else r.addChar .inField c
  | .inQuotedField =>
    if c = '"' then .ok { r with state := .quoteInQuotedField } else r.addChar .inQuotedField c
  | .quoteInQuotedField =>
    if c = '"' then r.addChar .inQuotedField c
    else if c = ',' then .ok (r.saveField .startField)
    else if isNewline c then .ok (r.saveField .eatCrnl)
    else r.addChar .inField c
  | .eatCrnl =>
    if isNewline c then .ok r
    else .error ("new-line character seen in unquoted field - " ++
      "do you need to open the file with newline=''?")

/-- `parse_process_char` for the end of a line. -/
def endLine (r : Reader) : Reader :=
  match r.state with
  | .startRecord | .inQuotedField => r
  | .startField | .inField | .quoteInQuotedField => r.saveField .startRecord
  | .eatCrnl => { r with state := .startRecord }

/-- One line of the source. -/
def processLine (r : Reader) (line : List Char) : Except String Reader :=
  return (← line.foldlM processChar r).endLine

/-- `next`: the lines are read up to the end of a record. Without lines it gives what the source
    gives, unless the source has ended inside a field. -/
def next (raises : Bool) : Reader → List (List Char) → Except String (Option (List (List Char)))
  | r, [] =>
    if ¬ raises ∧ (r.field ≠ [] ∨ r.state = .inQuotedField) then
      .ok (some (r.saveField .startRecord).fields)
    else .ok none
  | r, line :: lines => do
    let r ← r.processLine line
    if r.state = .startRecord then return some r.fields else next raises r lines

end Reader

/-- The lines of a text, each with its end, as a file opened with `newline=""` yields them. -/
def splitLines : List Char → List (List Char)
  | [] => []
  | '\r' :: '\n' :: cs => ['\r', '\n'] :: splitLines cs
  | c :: cs =>
    if isNewline c then [c] :: splitLines cs
    else match splitLines cs with
      | [] => [[c]]
      | line :: lines => (c :: line) :: lines

/-- The lines of the beginning of a text whose end is known, whatever comes after it. -/
def finishedLines (text : List Char) : List (List Char) :=
  let lines := splitLines text
  if lines.getLast?.bind (·.getLast?) = some '\n' then lines else lines.dropLast

/-- What stands between the quotes of a field. -/
inductive QuotedText : List Char → List Char → Prop where
  | nil : QuotedText [] []
  | char {c text value} : c ≠ '"' → QuotedText text value → QuotedText (c :: text) (c :: value)
  | quote {text value} : QuotedText text value → QuotedText ('"' :: '"' :: text) ('"' :: value)

/-- No comma and no end of a line. -/
def Plain (text : List Char) : Prop := ∀ c ∈ text, c ≠ ',' ∧ isNewline c = false

/-- A field as it is written, and its value. -/
inductive FieldText : List Char → List Char → Prop where
  | bare {text} : Plain text → text.head? ≠ some '"' → FieldText text text
  | quoted {text value tail} : QuotedText text value → Plain tail → tail.head? ≠ some '"' →
      FieldText ('"' :: text ++ '"' :: tail) (value ++ tail)

/-- A record as it is written, and its fields. -/
inductive RecordText : List Char → List (List Char) → Prop where
  | last {text value} : FieldText text value → RecordText text [value]
  | more {text value rest values} : FieldText text value → RecordText rest values →
      RecordText (text ++ ',' :: rest) (value :: values)

/-- The beginning of a record whose last quote is not closed. -/
inductive OpenText : List Char → List (List Char) → Prop where
  | last {text value} : QuotedText text value → OpenText ('"' :: text) [value]
  | more {text value rest values} : FieldText text value → OpenText rest values →
      OpenText (text ++ ',' :: rest) (value :: values)

/-- The first record of a text: a line of its own, or all of it where a quote is not closed. An empty
    line is a record without fields. -/
inductive FirstRecord : List Char → List (List Char) → Prop where
  | empty {c rest} : isNewline c = true → FirstRecord (c :: rest) []
  | line {record rest values} : RecordText record values → record ≠ [] →
      rest.head?.all isNewline = true → FirstRecord (record ++ rest) values
  | unclosed {text values} : OpenText text values → FirstRecord text values

/-! ### From lines to the text

    Inside quotes the end of a line changes nothing; elsewhere it ends the record, as the newline before
    it did. So the lines can be read as one text. -/

namespace Reader

/-- The fields of the record that a reader is in the middle of, from the text that follows. -/
def scan : Reader → List Char → Except String (List (List Char))
  | r, [] => .ok (if r.state = .inQuotedField then r.saveField .startRecord else r.endLine).fields
  | r, c :: cs =>
    if isNewline c ∧ r.state ≠ .inQuotedField then (r.processChar c).map Reader.fields
    else (r.processChar c).bind fun r => r.scan cs

variable {r r' : Reader} {c : Char}

/-- A character that ends no line leaves the reader within its record. -/
theorem processChar_state (hc : isNewline c = false) (h : r.processChar c = .ok r') :
    r'.state ≠ .startRecord ∧ (r.state ≠ .eatCrnl → r'.state ≠ .eatCrnl) := by
  obtain ⟨state, field, fields⟩ := r
  cases state <;>
    simp only [processChar, startField, addChar, hc, Bool.false_eq_true, if_false] at h <;>
    (repeat' split at h) <;> cases h <;> simp [saveField]

/-- A newline outside quotes ends the record. -/
theorem processChar_newline (hc : isNewline c = true) (hquoted : r.state ≠ .inQuotedField) :
    ∃ r', r.processChar c = .ok r' ∧ r'.state = .eatCrnl := by
  obtain ⟨state, field, fields⟩ := r
  have hquote : c ≠ '"' := by rintro rfl; exact absurd hc (by decide)
  have hcomma : c ≠ ',' := by rintro rfl; exact absurd hc (by decide)
  cases state with
  | inQuotedField => exact absurd rfl hquoted
  | startRecord | startField | inField | quoteInQuotedField | eatCrnl =>
    simp [processChar, startField, hc, hquote, hcomma, saveField]

/-- The rest of the newline is eaten. -/
theorem foldlM_newlines {line : List Char} (hend : r.state = .eatCrnl)
    (hline : ∀ c ∈ line, isNewline c = true) : line.foldlM processChar r = .ok r := by
  induction line with
  | nil => rfl
  | cons c line ih =>
    obtain ⟨hc, hline⟩ := List.forall_mem_cons.mp hline
    have hchar : r.processChar c = .ok r := by
      simp only [processChar, hend, hc, if_true]
    rw [List.foldlM_cons, hchar]
    exact ih hline

/-- The record ends with this line. -/
theorem next_newline {line : List Char} {lines : List (List Char)} (raises : Bool)
    (hc : isNewline c = true) (hline : ∀ c ∈ line, isNewline c = true)
    (hquoted : r.state ≠ .inQuotedField) :
    next raises r ((c :: line) :: lines) = (r.processChar c).map fun r => some r.fields := by
  obtain ⟨r', hchar, hend⟩ := processChar_newline hc hquoted
  have hprocess : r.processLine (c :: line) = .ok { r' with state := .startRecord } := by
    have hrest := foldlM_newlines hend hline
    simp only [processLine, List.foldlM_cons, hchar, bind, Except.bind, hrest, endLine, hend]
    rfl
  simp [next, hprocess, hchar, bind, Except.bind, pure, Except.pure, Except.map]

/-- One character of a line. -/
theorem next_cons {line : List Char} {lines : List (List Char)} (raises : Bool) :
    next raises r ((c :: line) :: lines) =
      (r.processChar c).bind fun r => next raises r (line :: lines) := by
  simp only [next, processLine, List.foldlM_cons, bind, Except.bind]
  cases r.processChar c <;> rfl

/-- The end of a line, inside quotes. -/
theorem next_quoted {lines : List (List Char)} (raises : Bool) (hquoted : r.state = .inQuotedField) :
    next raises r ([] :: lines) = next raises r lines := by
  have hline : r.processLine [] = .ok r := by
    obtain ⟨state, field, fields⟩ := r
    cases hquoted
    rfl
  simp [next, hline, bind, Except.bind, hquoted]

/-- The end of the text inside a record. -/
theorem next_last (hstart : r.state ≠ .startRecord) (hend : r.state ≠ .eatCrnl) :
    next false r [[]] = (r.scan []).map some := by
  obtain ⟨state, field, fields⟩ := r
  cases state with
  | startRecord => exact absurd rfl hstart
  | eatCrnl => exact absurd rfl hend
  | startField | inField | quoteInQuotedField => rfl
  | inQuotedField =>
    rw [next_quoted false rfl]
    simp [next, scan, Except.map]

/-- A newline inside quotes is a character of the field. -/
theorem processChar_quoted (hc : isNewline c = true) (hquoted : r.state = .inQuotedField)
    (h : r.processChar c = .ok r') : r'.state = .inQuotedField := by
  have hquote : c ≠ '"' := by rintro rfl; exact absurd hc (by decide)
  simp only [processChar, hquoted, addChar, if_neg hquote] at h
  split at h
  · cases h
  · cases h
    rfl

theorem scan_newline (cs : List Char) (hc : isNewline c = true) (hquoted : r.state ≠ .inQuotedField) :
    r.scan (c :: cs) = (r.processChar c).map Reader.fields := by
  simp [scan, hc, hquoted]

theorem scan_cons (cs : List Char) (h : isNewline c = true → r.state = .inQuotedField) :
    r.scan (c :: cs) = (r.processChar c).bind fun r => r.scan cs := by
  rw [scan, if_neg]
  rintro ⟨hc, hquoted⟩
  exact hquoted (h hc)

theorem splitLines_eq_nil {text : List Char} (h : splitLines text = []) : text = [] := by
  fun_cases splitLines text with
  | case1 => rfl
  | case2 cs => simp [splitLines] at h
  | case3 c cs hcr hc => simp [splitLines.eq_3 c cs hcr, hc] at h
  | case4 c cs hcr hc hnil => simp [splitLines.eq_3 c cs hcr, hc, hnil] at h
  | case5 c cs hcr hc line lines hlines => simp [splitLines.eq_3 c cs hcr, hc, hlines] at h

/-- By induction on the text: a record that begins or goes on with this text is read from its lines as
    from the text. Only between two lines of a quoted field may nothing be left. -/
theorem next_splitLines (text : List Char) : ∀ r : Reader, r.state ≠ .eatCrnl →
    (text = [] → r.state = .inQuotedField) →
    next false r (splitLines text) = (r.scan text).map some := by
  induction text using splitLines.induct with
  | case1 =>
    intro r _ hquoted
    simp [splitLines, next, scan, hquoted rfl, Except.map]
  | case2 cs ih =>
    intro r hend _
    rw [splitLines]
    by_cases hquoted : r.state = .inQuotedField
    · rw [next_cons, scan_cons _ fun _ => hquoted]
      cases hchar : r.processChar '\r' with
      | error message => rfl
      | ok r₁ =>
        have hquoted₁ := processChar_quoted rfl hquoted hchar
        show next false r₁ _ = (r₁.scan _).map some
        rw [next_cons, scan_cons _ fun _ => hquoted₁]
        cases hchar₁ : r₁.processChar '\n' with
        | error message => rfl
        | ok r₂ =>
          have hquoted₂ := processChar_quoted rfl hquoted₁ hchar₁
          show next false r₂ _ = (r₂.scan _).map some
          rw [next_quoted false hquoted₂]
          exact ih r₂ (by simp [hquoted₂]) fun _ => hquoted₂
    · rw [next_newline false rfl (List.forall_mem_singleton.mpr rfl) hquoted, scan_newline _ rfl hquoted]
      cases r.processChar '\r' <;> rfl
  | case3 c cs hcr hc ih =>
    intro r hend _
    rw [splitLines.eq_3 c cs hcr, if_pos hc]
    by_cases hquoted : r.state = .inQuotedField
    · rw [next_cons, scan_cons _ fun _ => hquoted]
      cases hchar : r.processChar c with
      | error message => rfl
      | ok r₁ =>
        have hquoted₁ := processChar_quoted hc hquoted hchar
        show next false r₁ _ = (r₁.scan _).map some
        rw [next_quoted false hquoted₁]
        exact ih r₁ (by simp [hquoted₁]) fun _ => hquoted₁
    · rw [next_newline false hc (by simp) hquoted, scan_newline _ hc hquoted]
      cases r.processChar c <;> rfl
  | case4 c cs hcr hc hnil ih =>
    intro r hend _
    obtain rfl := splitLines_eq_nil hnil
    rw [splitLines.eq_3 c [] hcr, if_neg hc, hnil, next_cons, scan_cons _ fun h => absurd h hc]
    cases hchar : r.processChar c with
    | error message => rfl
    | ok r₁ =>
      obtain ⟨hstart₁, hend₁⟩ := processChar_state (by simpa using hc) hchar
      exact next_last hstart₁ (hend₁ hend)
  | case5 c cs hcr hc line lines hlines ih =>
    intro r hend _
    rw [splitLines.eq_3 c cs hcr, if_neg hc, hlines]
    dsimp only
    rw [next_cons, scan_cons _ fun h => absurd h hc]
    cases hchar : r.processChar c with
    | error message => rfl
    | ok r₁ =>
      obtain ⟨-, hend₁⟩ := processChar_state (by simpa using hc) hchar
      show next false r₁ (line :: lines) = (r₁.scan cs).map some
      rw [← hlines]
      refine ih r₁ (hend₁ hend) ?_
      rintro rfl
      cases hlines

/-! ### Fields and records as they are written -/

variable {field text value record rest : List Char} {fields values : List (List Char)} {state : State}

/-- Nothing, a comma or the end of a line. -/
def Delimited (rest : List Char) : Prop :=
  rest.head?.all (fun c => c = ',' || isNewline c) = true

/-- What is read after a field. -/
def after (fields : List (List Char)) : List Char → Except String (List (List Char))
  | ',' :: rest => scan ⟨.startField, [], fields⟩ rest
  | _ => .ok fields

/-- The state after a field that can end here. -/
def Closed (state : State) : Prop :=
  state = .startField ∨ state = .inField ∨ state = .quoteInQuotedField

theorem scan_delimited (hstate : Closed state) (hrest : Delimited rest) :
    scan ⟨state, field, fields⟩ rest = after (fields ++ [field]) rest := by
  rcases rest with _ | ⟨c, rest⟩
  · rcases hstate with rfl | rfl | rfl <;> rfl
  · simp only [Delimited, List.head?_cons, Option.all_some, Bool.or_eq_true, decide_eq_true_eq] at hrest
    rcases hrest with rfl | hc
    · rw [scan_cons _ fun h => absurd h (by decide)]
      rcases hstate with rfl | rfl | rfl <;> rfl
    · have hcomma : c ≠ ',' := by rintro rfl; exact absurd hc (by decide)
      have hquote : c ≠ '"' := by rintro rfl; exact absurd hc (by decide)
      have hafter : after (fields ++ [field]) (c :: rest) = .ok (fields ++ [field]) := by
        unfold after
        split
        · rename_i heq
          exact absurd (List.cons.inj heq).1 hcomma
        · rfl
      rw [hafter, scan_newline _ hc (by rcases hstate with rfl | rfl | rfl <;> simp)]
      rcases hstate with rfl | rfl | rfl <;>
        simp [processChar, startField, hc, hcomma, hquote, saveField, Except.map]

/-- One more character of a field: it fits if the whole field does. -/
theorem bind_addChar {state' : State} {c : Char} {n : Nat}
    {next : Reader → Except String (List (List Char))} {x : Except String (List (List Char))}
    (hnext : (field ++ [c]).length ≤ fieldLimit → next ⟨state', field ++ [c], fields⟩ =
      if (field ++ [c]).length + n ≤ fieldLimit then x else .error tooLarge) :
    (addChar ⟨state, field, fields⟩ state' c).bind next =
      if field.length + (n + 1) ≤ fieldLimit then x else .error tooLarge := by
  simp only [List.length_append, List.length_singleton] at hnext
  simp only [addChar]
  split
  · rw [if_neg (by omega)]
    rfl
  · rw [show field.length + (n + 1) = field.length + 1 + n by omega]
    exact hnext (by omega)

/-- By induction on the text: characters of an open field are added to it, up to the limit. -/
theorem scan_plain (hplain : Plain text) (hfield : field.length ≤ fieldLimit) :
    scan ⟨.inField, field, fields⟩ (text ++ rest) =
      if field.length + text.length ≤ fieldLimit then scan ⟨.inField, field ++ text, fields⟩ rest
      else .error tooLarge := by
  induction text generalizing field with
  | nil => simp [hfield]
  | cons c text ih =>
    obtain ⟨⟨hcomma, hc⟩, hplain⟩ := List.forall_mem_cons.mp hplain
    rw [List.cons_append, scan_cons _ fun h => by simp [hc] at h]
    simp only [processChar, hc, hcomma, if_false, Bool.false_eq_true]
    refine bind_addChar fun hroom => ?_
    rw [List.append_cons field c text]
    exact ih hplain hroom

/-- By induction on what stands between the quotes. -/
theorem scan_quoted (h : QuotedText text value) (hfield : field.length ≤ fieldLimit) :
    scan ⟨.inQuotedField, field, fields⟩ (text ++ rest) =
      if field.length + value.length ≤ fieldLimit then
        scan ⟨.inQuotedField, field ++ value, fields⟩ rest
      else .error tooLarge := by
  induction h generalizing field with
  | nil => simp [hfield]
  | @char c text value hquote _ ih =>
    rw [List.cons_append, scan_cons _ fun _ => rfl]
    simp only [processChar, hquote, if_false]
    refine bind_addChar fun hroom => ?_
    rw [List.append_cons field c value]
    exact ih hroom
  | @quote text value _ ih =>
    rw [List.cons_append, List.cons_append, scan_cons _ fun _ => rfl]
    show scan ⟨.quoteInQuotedField, field, fields⟩ _ = _
    rw [scan_cons _ fun h => absurd h (by decide)]
    simp only [processChar, if_true]
    refine bind_addChar fun hroom => ?_
    rw [List.append_cons field '"' value]
    exact ih hroom

/-- The part of a field without quotes around it. -/
theorem scan_bare (hstate : state = .startField ∨ state = .quoteInQuotedField) (hplain : Plain text)
    (hquote : text.head? ≠ some '"') (hfield : field.length ≤ fieldLimit) (hrest : Delimited rest) :
    scan ⟨state, field, fields⟩ (text ++ rest) =
      if field.length + text.length ≤ fieldLimit then after (fields ++ [field ++ text]) rest
      else .error tooLarge := by
  rcases text with _ | ⟨c, text⟩
  · have hclosed : Closed state := hstate.imp_right .inr
    simp [hfield, scan_delimited hclosed hrest]
  · obtain ⟨⟨hcomma, hc⟩, hplain⟩ := List.forall_mem_cons.mp hplain
    have hquote : c ≠ '"' := fun h => hquote (by rw [h]; rfl)
    have hchar : processChar ⟨state, field, fields⟩ c = addChar ⟨state, field, fields⟩ .inField c := by
      rcases hstate with rfl | rfl <;> simp [processChar, startField, hc, hcomma, hquote]
    rw [List.cons_append, scan_cons _ fun h => by simp [hc] at h, hchar]
    refine bind_addChar fun hroom => ?_
    rw [scan_plain hplain hroom, scan_delimited (.inr (.inl rfl)) hrest, ← List.append_cons]

/-- One whole field. -/
theorem scan_field (h : FieldText text value) (hrest : Delimited rest) :
    scan ⟨.startField, [], fields⟩ (text ++ rest) =
      if value.length ≤ fieldLimit then after (fields ++ [value]) rest else .error tooLarge := by
  cases h with
  | bare hplain hquote =>
    have hempty : ([] : List Char).length ≤ fieldLimit := Nat.zero_le _
    simpa using scan_bare (.inl rfl) hplain hquote hempty hrest
  | @quoted text value tail hquoted hplain hquote =>
    rw [List.append_assoc, List.cons_append, scan_cons _ fun h => absurd h (by decide)]
    show scan ⟨.inQuotedField, [], fields⟩ _ = _
    rw [scan_quoted hquoted (Nat.zero_le _)]
    simp only [List.length_nil, Nat.zero_add, List.nil_append, List.length_append]
    by_cases hfield : value.length ≤ fieldLimit
    · rw [if_pos hfield, List.cons_append, scan_cons _ fun _ => rfl]
      exact scan_bare (.inr rfl) hplain hquote hfield hrest
    · rw [if_neg hfield, if_neg (by omega)]

theorem delimited_comma : Delimited (',' :: rest) := by simp [Delimited]

theorem delimited_end (hrest : rest.head?.all isNewline = true) : Delimited rest := by
  rcases rest with _ | ⟨c, rest⟩
  · rfl
  · simp only [List.head?_cons, Option.all_some] at hrest
    simp [Delimited, hrest]

theorem after_comma : after fields (',' :: rest) = scan ⟨.startField, [], fields⟩ rest := rfl

theorem after_end (hrest : rest.head?.all isNewline = true) : after fields rest = .ok fields := by
  unfold after
  split
  · simp [isNewline] at hrest
  · rfl

/-- Every field is within the limit. -/
def Fits (values : List (List Char)) : Prop := ∀ value ∈ values, value.length ≤ fieldLimit

instance (values : List (List Char)) : Decidable (Fits values) :=
  inferInstanceAs (Decidable (∀ value ∈ values, value.length ≤ fieldLimit))

@[simp] theorem fits_nil : Fits [] := List.forall_mem_nil _

@[simp] theorem fits_cons : Fits (value :: values) ↔ value.length ≤ fieldLimit ∧ Fits values :=
  List.forall_mem_cons

/-- One field more. -/
theorem limited_cons (x : Except String (List (List Char))) :
    (if value.length ≤ fieldLimit then (if Fits values then x else .error tooLarge)
      else .error tooLarge) = if Fits (value :: values) then x else .error tooLarge := by
  by_cases hvalue : value.length ≤ fieldLimit <;> by_cases hvalues : Fits values <;>
    simp [hvalue, hvalues]

/-- By induction on the fields: a record is read up to the end of its line. -/
theorem scan_record (h : RecordText record values) (hrest : rest.head?.all isNewline = true) :
    scan ⟨.startField, [], fields⟩ (record ++ rest) =
      if Fits values then .ok (fields ++ values) else .error tooLarge := by
  induction h generalizing fields with
  | @last text value hfield =>
    rw [scan_field hfield (delimited_end hrest), after_end hrest]
    simp
  | @more text value record values hfield _ ih =>
    rw [List.append_assoc, List.cons_append, scan_field hfield delimited_comma, after_comma, ih,
      ← limited_cons, List.append_cons fields value values]

/-- A quote that is not closed takes the rest of the text. -/
theorem scan_open (h : OpenText text values) :
    scan ⟨.startField, [], fields⟩ text =
      if Fits values then .ok (fields ++ values) else .error tooLarge := by
  induction h generalizing fields with
  | @last text value hquoted =>
    have hempty : ([] : List Char).length ≤ fieldLimit := Nat.zero_le _
    have hscan : scan ⟨.inQuotedField, [], fields⟩ (text ++ []) = _ := scan_quoted hquoted hempty
    rw [List.append_nil] at hscan
    rw [scan_cons _ fun h => absurd h (by decide)]
    show scan ⟨.inQuotedField, [], fields⟩ text = _
    rw [hscan]
    simp [scan, saveField]
  | @more text value rest values hfield _ ih =>
    rw [scan_field hfield delimited_comma, after_comma, ih, ← limited_cons,
      List.append_cons fields value values]

section Head

variable {c : Char} {cs : List Char}

theorem field_head (h : FieldText (c :: cs) value) : isNewline c = false := by
  generalize htext : c :: cs = text at h
  cases h with
  | bare hplain _ =>
    subst htext
    exact (hplain c (by simp)).2
  | quoted =>
    obtain rfl := (List.cons.inj htext).1
    rfl

theorem comma_head (h : FieldText text value) (heq : text ++ ',' :: rest = c :: cs) :
    isNewline c = false := by
  rcases text with _ | ⟨d, text⟩
  · obtain rfl := (List.cons.inj heq).1
    rfl
  · obtain rfl := (List.cons.inj heq).1
    exact field_head h

/-- A record that is written at all does not begin with the end of a line. -/
theorem record_head (h : RecordText (c :: cs) values) : isNewline c = false := by
  generalize htext : c :: cs = text at h
  cases h with
  | last h => exact field_head (htext ▸ h)
  | more h _ => exact comma_head h htext.symm

theorem open_head (h : OpenText (c :: cs) values) : isNewline c = false := by
  generalize htext : c :: cs = text at h
  cases h with
  | last =>
    obtain rfl := (List.cons.inj htext).1
    rfl
  | more h _ => exact comma_head h htext.symm

end Head

/-- What `next` gives for a text whose first record is known. -/
theorem next_first (h : FirstRecord text values) :
    next false .start (splitLines text) =
      if Fits values then .ok (some values) else .error tooLarge := by
  have hlines : ∀ {c : Char} {cs : List Char}, next false .start (splitLines (c :: cs)) =
      (Reader.start.scan (c :: cs)).map some :=
    next_splitLines _ .start (by simp [start]) (by simp)
  -- the first character is read as the first one of a field
  have hstart : ∀ {c : Char} {cs : List Char}, isNewline c = false →
      Reader.start.scan (c :: cs) = scan ⟨.startField, [], []⟩ (c :: cs) := by
    intro c cs hc
    rw [scan_cons _ fun h => by simp [hc] at h, scan_cons _ fun h => by simp [hc] at h]
    simp [start, processChar, startField, addChar, saveField, hc]
  cases h with
  | @empty c rest hc =>
    rw [hlines, scan_newline _ hc (by simp [start])]
    simp [start, processChar, hc, Except.map]
  | @line record rest values hrecord hne hrest =>
    obtain ⟨c, cs, rfl⟩ := List.exists_cons_of_ne_nil hne
    have hscan : scan ⟨.startField, [], []⟩ (c :: cs ++ rest) = _ := scan_record hrecord hrest
    rw [List.cons_append] at hscan ⊢
    rw [hlines, hstart (record_head hrecord), hscan]
    by_cases hfits : Fits values <;> simp [hfits, Except.map]
  | unclosed hopen =>
    rcases text with _ | ⟨c, cs⟩
    · generalize htext : [] = text at hopen
      cases hopen with
      | last => cases htext
      | more => simp at htext
    · rw [hlines, hstart (open_head hopen), scan_open hopen]
      by_cases hfits : Fits values <;> simp [hfits, Except.map]

end Reader

/-! ### Every text has a first record -/

/-- By induction on the text: quoted text goes up to a quote that is not doubled, or to the end. -/
theorem exists_quotedText : ∀ cs : List Char, (∃ value, QuotedText cs value) ∨
    ∃ text value rest, cs = text ++ '"' :: rest ∧ QuotedText text value ∧ rest.head? ≠ some '"'
  | [] => .inl ⟨[], .nil⟩
  | [c] => by
    by_cases hc : c = '"'
    · subst hc
      exact .inr ⟨[], [], [], rfl, .nil, by simp⟩
    · exact .inl ⟨[c], .char hc .nil⟩
  | c :: d :: cs => by
    by_cases hc : c = '"'
    · subst hc
      by_cases hd : d = '"'
      · subst hd
        rcases exists_quotedText cs with ⟨value, h⟩ | ⟨text, value, rest, rfl, h, hrest⟩
        · exact .inl ⟨_, .quote h⟩
        · exact .inr ⟨_, _, rest, rfl, .quote h, hrest⟩
      · exact .inr ⟨[], [], d :: cs, rfl, .nil, by simpa using hd⟩
    · rcases exists_quotedText (d :: cs) with ⟨value, h⟩ | ⟨text, value, rest, heq, h, hrest⟩
      · exact .inl ⟨_, .char hc h⟩
      · exact .inr ⟨_, _, rest, congrArg (c :: ·) heq, .char hc h, hrest⟩

open Reader in
/-- By induction on the text: plain text goes up to a comma or the end of the line. -/
theorem exists_plain (cs : List Char) :
    ∃ text rest, cs = text ++ rest ∧ Plain text ∧ Delimited rest := by
  induction cs with
  | nil => exact ⟨[], [], rfl, List.forall_mem_nil _, rfl⟩
  | cons c cs ih =>
    by_cases hc : c = ',' ∨ isNewline c = true
    · exact ⟨[], c :: cs, rfl, List.forall_mem_nil _, by simpa [Delimited] using hc⟩
    · obtain ⟨hcomma, hend⟩ := not_or.mp hc
      obtain ⟨text, rest, rfl, hplain, hrest⟩ := ih
      exact ⟨c :: text, rest, rfl, List.forall_mem_cons.mpr ⟨⟨hcomma, by simpa using hend⟩, hplain⟩,
        hrest⟩

theorem head_of_append {text rest : List Char} (h : (text ++ rest).head? ≠ some '"') :
    text.head? ≠ some '"' := by
  rcases text with _ | ⟨c, text⟩
  · simp
  · simpa using h

open Reader in
theorem exists_fieldText (cs : List Char) : (∃ text value, cs = '"' :: text ∧ QuotedText text value) ∨
    ∃ text value rest, cs = text ++ rest ∧ FieldText text value ∧ Delimited rest := by
  by_cases hquote : cs.head? = some '"'
  · obtain ⟨cs, rfl⟩ := List.head?_eq_some_iff.mp hquote
    rcases exists_quotedText cs with ⟨value, h⟩ | ⟨text, value, rest, rfl, h, hrest⟩
    · exact .inl ⟨cs, value, rfl, h⟩
    · obtain ⟨tail, rest, rfl, hplain, hdelimited⟩ := exists_plain rest
      exact .inr ⟨_, _, rest, by simp, .quoted h hplain (head_of_append hrest), hdelimited⟩
  · obtain ⟨text, rest, rfl, hplain, hdelimited⟩ := exists_plain cs
    exact .inr ⟨text, text, rest, rfl, .bare hplain (head_of_append hquote), hdelimited⟩

/-- By induction on the length: fields are read up to the end of a line, or into an open quote. -/
theorem exists_recordText (cs : List Char) : (∃ values, OpenText cs values) ∨
    ∃ record rest values, cs = record ++ rest ∧ RecordText record values ∧
      rest.head?.all isNewline = true := by
  induction hlength : cs.length using Nat.strong_induction_on generalizing cs with | _ n ih
  rcases exists_fieldText cs with ⟨text, value, rfl, h⟩ | ⟨text, value, rest, heq, h, hrest⟩
  · exact .inl ⟨[value], .last h⟩
  · rcases rest with _ | ⟨c, rest⟩
    · exact .inr ⟨text, [], [value], heq, .last h, rfl⟩
    · by_cases hc : c = ','
      · subst hc heq hlength
        have hlt : rest.length < (text ++ ',' :: rest).length := by simp; omega
        rcases ih _ hlt rest rfl with ⟨values, hopen⟩ | ⟨record, rest, values, rfl, hrecord, hend⟩
        · exact .inl ⟨_, .more h hopen⟩
        · exact .inr ⟨_, rest, _, by simp, .more h hrecord, hend⟩
      · have hend : isNewline c = true := by
          simpa [Reader.Delimited, hc] using hrest
        exact .inr ⟨text, c :: rest, [value], heq, .last h, by simpa using hend⟩

theorem exists_firstRecord {text : List Char} (hne : text ≠ []) :
    ∃ values, FirstRecord text values := by
  rcases exists_recordText text with ⟨values, hopen⟩ | ⟨record, rest, values, rfl, hrecord, hend⟩
  · exact ⟨values, .unclosed hopen⟩
  · by_cases hempty : record = []
    · subst hempty
      obtain ⟨c, rest, rfl⟩ := List.exists_cons_of_ne_nil hne
      exact ⟨[], .empty (by simpa using hend)⟩
    · exact ⟨values, .line hrecord hempty hend⟩

/-- The first record that is read from a text is the one that its beginning is written as. -/
theorem next_iff {text : List Char} {values : List (List Char)} :
    Reader.next false .start (splitLines text) = .ok (some values) ↔
      FirstRecord text values ∧ Reader.Fits values := by
  constructor
  · intro h
    by_cases hne : text = []
    · subst hne
      simp [splitLines, Reader.next, Reader.start] at h
    · obtain ⟨values', hfirst⟩ := exists_firstRecord hne
      rw [Reader.next_first hfirst] at h
      split at h
      · rename_i hfits
        obtain rfl := Option.some.inj (Except.ok.inj h)
        exact ⟨hfirst, hfits⟩
      · cases h
  · rintro ⟨hfirst, hfits⟩
    rw [Reader.next_first hfirst, if_pos hfits]

/-! ### The beginning of a text -/

/-- A first line whose end is known is a line of any text that goes on from there. -/
theorem finishedLines_cons {line : List Char} {text cs : List Char}
    (hlines : splitLines text = line :: splitLines cs)
    (hend : cs = [] → line.getLast? = some '\n') :
    finishedLines text = line :: finishedLines cs := by
  rcases hrest : splitLines cs with _ | ⟨next, rest⟩
  · obtain rfl := Reader.splitLines_eq_nil hrest
    simp [finishedLines, hlines, hend rfl, splitLines]
  · simp only [finishedLines, hlines, hrest, List.getLast?_cons_cons, List.dropLast_cons_cons]
    split <;> rfl

/-- A character before the first line whose end is known. -/
theorem finishedLines_char {c : Char} {text cs line : List Char} {lines : List (List Char)}
    (hc : c ≠ '\n') (hlines : splitLines cs = line :: lines)
    (htext : splitLines text = (c :: line) :: lines) :
    finishedLines text = [] ∨
      ∃ first rest, finishedLines cs = first :: rest ∧ finishedLines text = (c :: first) :: rest := by
  have hlast : (c :: line).getLast? = some '\n' ↔ line.getLast? = some '\n' := by
    rcases line with _ | ⟨d, line⟩
    · simpa using hc
    · simp
  rcases lines with _ | ⟨next, rest⟩
  · by_cases hline : line.getLast? = some '\n'
    · exact .inr ⟨line, [], by simp [finishedLines, hlines, hline],
        by simp [finishedLines, htext, hlast.mpr hline]⟩
    · exact .inl (by simp [finishedLines, htext, mt hlast.mp hline])
  · by_cases hend : (next :: rest).getLast?.bind (·.getLast?) = some '\n'
    · exact .inr ⟨line, next :: rest, by simp only [finishedLines, hlines, List.getLast?_cons_cons, hend,
        if_true], by simp only [finishedLines, htext, List.getLast?_cons_cons, hend, if_true]⟩
    · exact .inr ⟨line, (next :: rest).dropLast, by simp only [finishedLines, hlines,
        List.getLast?_cons_cons, List.dropLast_cons_cons, if_neg hend], by simp only [finishedLines,
        htext, List.getLast?_cons_cons, List.dropLast_cons_cons, if_neg hend]⟩

/-- By induction on the beginning of the text. -/
theorem finishedLines_prefix (text more : List Char) :
    finishedLines text <+: splitLines (text ++ more) := by
  induction text using splitLines.induct with
  | case1 => exact List.nil_prefix
  | case2 cs ih =>
    have htext : splitLines ('\r' :: '\n' :: cs) = ['\r', '\n'] :: splitLines cs := rfl
    rw [finishedLines_cons htext fun _ => rfl]
    exact (List.prefix_cons_inj _).mpr ih
  | case3 c cs hcr hc ih =>
    by_cases hpending : c = '\r' ∧ cs = []
    · obtain ⟨rfl, rfl⟩ := hpending
      exact List.nil_prefix
    · have hmore : ∀ rest, c = '\r' → cs ++ more = '\n' :: rest → False := by
        rintro rest rfl heq
        obtain ⟨d, cs, rfl⟩ := List.exists_cons_of_ne_nil fun h => hpending ⟨rfl, h⟩
        exact hcr cs rfl (by rw [(List.cons.inj heq).1])
      have hend : cs = [] → [c].getLast? = some '\n' := by
        intro hempty
        have hother : c ≠ '\r' := fun h => hpending ⟨h, hempty⟩
        simpa [isNewline, hother] using hc
      rw [finishedLines_cons (by rw [splitLines.eq_3 c cs hcr, if_pos hc]) hend, List.cons_append,
        splitLines.eq_3 c _ hmore, if_pos hc]
      exact (List.prefix_cons_inj _).mpr ih
  | case4 c cs hcr hc hnil ih =>
    obtain rfl := Reader.splitLines_eq_nil hnil
    have hnewline : c ≠ '\n' := by rintro rfl; exact hc rfl
    have hlines : splitLines [c] = [[c]] := by rw [splitLines.eq_3 c [] hcr, if_neg hc, hnil]
    have hfinished : finishedLines [c] = [] := by simp [finishedLines, hlines, hnewline]
    rw [hfinished]
    exact List.nil_prefix
  | case5 c cs hcr hc line lines hlines ih =>
    have hnewline : c ≠ '\n' := by rintro rfl; exact hc rfl
    have hreturn : c ≠ '\r' := by rintro rfl; exact hc rfl
    have htext : splitLines (c :: cs) = (c :: line) :: lines := by
      rw [splitLines.eq_3 c cs hcr, if_neg hc, hlines]
    rcases finishedLines_char hnewline hlines htext with hnone | ⟨first, rest, hfirst, hall⟩
    · rw [hnone]
      exact List.nil_prefix
    · rw [hfirst] at ih
      obtain ⟨others, hothers⟩ := ih
      rw [List.cons_append] at hothers
      have hmore : splitLines (c :: (cs ++ more)) = (c :: first) :: (rest ++ others) := by
        rw [splitLines.eq_3 c _ fun _ h => absurd h hreturn, if_neg hc, ← hothers]
      rw [hall, List.cons_append, hmore]
      exact ⟨others, rfl⟩

/-- A record that ends before the lines do is the same whatever lines follow. -/
theorem next_append {lines others : List (List Char)} {values : List (List Char)} (raises : Bool) :
    ∀ {r : Reader}, Reader.next true r lines = .ok (some values) →
      Reader.next raises r (lines ++ others) = .ok (some values) := by
  induction lines with
  | nil =>
    intro r h
    simp [Reader.next] at h
  | cons line lines ih =>
    intro r h
    simp only [Reader.next, List.cons_append, bind, Except.bind] at h ⊢
    cases hline : r.processLine line with
    | error message =>
      rw [hline] at h
      cases h
    | ok r₁ =>
      rw [hline] at h
      dsimp only at h ⊢
      split at h
      · rename_i hstart
        rw [if_pos hstart]
        exact h
      · rename_i hstart
        rw [if_neg hstart]
        exact ih h

/-! ### Writing a record -/

/-- A field as `csv.QUOTE_ALL` writes it. -/
def quoteField (value : List Char) : List Char :=
  '"' :: value.flatMap (fun c => if c = '"' then ['"', '"'] else [c]) ++ ['"']

/-- A row as `csv.QUOTE_ALL` writes it, without its line terminator. -/
def writeRow : List (List Char) → List Char
  | [] => []
  | [value] => quoteField value
  | value :: values => quoteField value ++ ',' :: writeRow values

theorem quotedText_of_value (value : List Char) :
    QuotedText (value.flatMap fun c => if c = '"' then ['"', '"'] else [c]) value := by
  induction value with
  | nil => exact .nil
  | cons c value ih =>
    rw [List.flatMap_cons]
    split
    · rename_i hc
      subst hc
      exact .quote ih
    · rename_i hc
      exact .char hc ih

theorem fieldText_quoteField (value : List Char) : FieldText (quoteField value) value := by
  have hquoted := FieldText.quoted (quotedText_of_value value) (List.forall_mem_nil _ : Plain [])
    (by simp)
  rwa [List.append_nil] at hquoted

/-- By induction on the fields. -/
theorem recordText_writeRow {values : List (List Char)} (hne : values ≠ []) :
    RecordText (writeRow values) values := by
  induction values with
  | nil => exact absurd rfl hne
  | cons value values ih =>
    rcases values with _ | ⟨next, values⟩
    · exact .last (fieldText_quoteField value)
    · exact .more (fieldText_quoteField value) (ih (List.cons_ne_nil _ _))

theorem writeRow_head {values : List (List Char)} (hne : values ≠ []) :
    ∃ cs, writeRow values = '"' :: cs := by
  obtain ⟨value, values, rfl⟩ := List.exists_cons_of_ne_nil hne
  rcases values with _ | ⟨next, values⟩
  · exact ⟨_, rfl⟩
  · exact ⟨_, rfl⟩

theorem firstRecord_writeRow {values : List (List Char)} {rest : List Char} (hne : values ≠ [])
    (hrest : rest.head?.all isNewline = true) : FirstRecord (writeRow values ++ rest) values := by
  obtain ⟨cs, hcs⟩ := writeRow_head hne
  exact .line (recordText_writeRow hne) (by simp [hcs]) hrest

end EvidenceCartographer.Python.Csv
