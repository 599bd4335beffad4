import EvidenceCartographer.Python.CsvReader
import EvidenceCartographer.Python.JsonLoads
import EvidenceCartographer.Sources.Met.Contract

/-! The header of a snapshot, read from its file.

    `inspect` opens the file as text and takes one record from it. Which files it accepts is a matter of
    how they begin: with one record, written in any of the ways the CSV syntax allows, whose fields are
    columns of the contract. What comes after that record is not looked at. -/

namespace EvidenceCartographer.Sources.Met

open Python Python.Csv Domain Application

/-- `data.decode("utf-8-sig")`. -/
def decodeUtf8Sig (data : Bytes) : Option (List Char) :=
  Json.decodeUtf8 (if data.take 3 = [0xef, 0xbb, 0xbf] then data.drop 3 else data)

/-- A file opened with `encoding="utf-8-sig"` and `newline=""`: the text that can be read from it, and
    what is raised after that, if anything. -/
structure HeaderFile where
  text : List Char
  failure : Option Exc

/-- The lines that the file yields before it fails. -/
def HeaderFile.lines (file : HeaderFile) : List (List Char) :=
  match file.failure with
  | none => splitLines file.text
  | some _ => finishedLines file.text

/-- `isinstance(exc, UnicodeError)`. -/
def isUnicodeError : Exc → Bool
  | .valueError typeName _ => typeName ∈ ["UnicodeError", "UnicodeDecodeError", "UnicodeEncodeError",
      "UnicodeTranslateError"]
  | _ => false

/-- `next(csv.reader(source))`, with the source opened and closed around it. -/
def readHeader (file : HeaderFile) : HeaderRead :=
  match Reader.next file.failure.isSome .start file.lines with
  | .error message => .failed message
  | .ok (some row) => .row (row.map String.ofList)
  | .ok none =>
    match file.failure with
    | none => .empty
    | some exc => if exc.isOSError || isUnicodeError exc then .failed exc.str else .raised exc

/-- `MetCsvPreflight.inspect`, from the file. -/
def inspectFile (file : HeaderFile) : Except Exc MetCsvPreflightResult := inspect (readHeader file)

/-- The columns that the contract accepts. -/
structure Accepted (columns : List String) : Prop where
  nonempty : columns ≠ []
  named : "" ∉ columns
  distinct : columns.Nodup
  required : ∀ column ∈ metV1RequiredColumns, column ∈ columns

/-- What the preflight says of columns it does not know. -/
def unexpectedMessages (columns : List String) : List ValidationMessage :=
  let unexpected := columns.filter (· ∉ metV1KnownColumns)
  if unexpected = [] then [] else
    [⟨"unexpected_columns", "Met CSV added columns: " ++ joinSorted unexpected, none⟩]

theorem inspect_row_iff {header : List String} {preflight : MetCsvPreflightResult} :
    inspect (.row header) = .ok preflight ↔
      Accepted header ∧ preflight = ⟨header, unexpectedMessages header⟩ := by
  have hmissing : metV1RequiredColumns.filter (· ∉ header) = [] ↔
      ∀ column ∈ metV1RequiredColumns, column ∈ header := by
    simp [List.filter_eq_nil_iff]
  constructor
  · intro h
    obtain ⟨-, hdistinct, hrequired⟩ := inspect_ok h
    simp only [inspect] at h
    split at h
    · cases h
    rename_i hblank
    obtain ⟨hnonempty, hnamed⟩ := not_or.mp hblank
    split at h
    · cases h
    split at h
    · cases h
    cases h
    exact ⟨⟨hnonempty, hnamed, hdistinct, hrequired⟩, rfl⟩
  · rintro ⟨haccepted, rfl⟩
    have hblank : ¬ (header = [] ∨ "" ∈ header) := not_or.mpr ⟨haccepted.nonempty, haccepted.named⟩
    rw [inspect, if_neg hblank, if_neg (not_not.mpr haccepted.distinct)]
    simp only [hmissing.mpr haccepted.required, ne_eq, not_true_eq_false, if_false]
    rfl

/-- What is read from a whole text. -/
theorem readHeader_row_iff {text : List Char} {row : List String} :
    readHeader ⟨text, none⟩ = .row row ↔
      ∃ header, FirstRecord text header ∧ Reader.Fits header ∧ row = header.map String.ofList := by
  have hread : readHeader ⟨text, none⟩ = match Reader.next false .start (splitLines text) with
      | .error message => .failed message
      | .ok (some row) => .row (row.map String.ofList)
      | .ok none => .empty := rfl
  rw [hread]
  constructor
  · intro h
    split at h
    · cases h
    · rename_i header hnext
      obtain ⟨hfirst, hfits⟩ := next_iff.mp hnext
      cases h
      exact ⟨header, hfirst, hfits, rfl⟩
    · cases h
  · rintro ⟨header, hfirst, hfits, rfl⟩
    rw [next_iff.mpr ⟨hfirst, hfits⟩]

theorem inspect_error_of {read : HeaderRead} {exc : Exc} (h : inspect read = .error exc) :
    (∃ message, exc = .metCsvSchemaError message) ∨ read = .raised exc := by
  cases read with
  | empty => exact .inl ⟨_, (Except.error.inj h).symm⟩
  | failed message => exact .inl ⟨_, (Except.error.inj h).symm⟩
  | raised raised => exact .inr (congrArg HeaderRead.raised (Except.error.inj h))
  | row header =>
    simp only [inspect] at h
    split at h
    · exact .inl ⟨_, (Except.error.inj h).symm⟩
    split at h
    · exact .inl ⟨_, (Except.error.inj h).symm⟩
    split at h
    · exact .inl ⟨_, (Except.error.inj h).symm⟩
    · cases h

/-- What the preflight lets through is what the file raised, for a reason that is not its text. -/
theorem readHeader_raised {file : HeaderFile} {exc : Exc} (h : readHeader file = .raised exc) :
    file.failure = some exc ∧ exc.isOSError = false ∧ isUnicodeError exc = false := by
  unfold readHeader at h
  split at h
  · cases h
  · cases h
  split at h
  · cases h
  rename_i raised hfailure
  split at h
  · cases h
  rename_i hother
  obtain rfl := HeaderRead.raised.inj h
  rw [Bool.or_eq_true, not_or, Bool.not_eq_true, Bool.not_eq_true] at hother
  exact ⟨hfailure, hother⟩

/-- A file that fails after its header has the header of any file that begins like it. -/
theorem readHeader_failed {text : List Char} {exc : Exc} {row : List String}
    (h : readHeader ⟨text, some exc⟩ = .row row) (more : List Char) :
    readHeader ⟨text ++ more, none⟩ = .row row := by
  have hread : readHeader ⟨text, some exc⟩ =
      match Reader.next true .start (finishedLines text) with
      | .error message => .failed message
      | .ok (some row) => .row (row.map String.ofList)
      | .ok none => if exc.isOSError || isUnicodeError exc then .failed exc.str else .raised exc := rfl
  rw [hread] at h
  split at h
  · cases h
  · rename_i header hnext
    obtain ⟨others, hothers⟩ := finishedLines_prefix text more
    have hwhole : Reader.next false .start (finishedLines text ++ others) = _ := next_append false hnext
    rw [hothers] at hwhole
    obtain ⟨hfirst, hfits⟩ := next_iff.mp hwhole
    rw [readHeader_row_iff.mpr ⟨header, hfirst, hfits, rfl⟩]
    exact h
  · split at h <;> cases h

/-- The preflight accepts a file that can be read if and only if it begins with a record, in whatever
    way it is written, whose fields are columns of the contract; it returns these columns, with what it
    says of them. A file that fails later is accepted only for such a beginning, and a file is refused
    with an error of the contract, unless it failed itself for a reason that is not its text. -/
theorem inspectFile_iff (file : HeaderFile) :
    (file.failure = none → ∀ preflight, inspectFile file = .ok preflight ↔ ∃ header,
      FirstRecord file.text header ∧ Reader.Fits header ∧ Accepted (header.map String.ofList) ∧
      preflight = ⟨header.map String.ofList, unexpectedMessages (header.map String.ofList)⟩) ∧
    (file.failure ≠ none → ∀ preflight, inspectFile file = .ok preflight →
      ∀ more, inspectFile ⟨file.text ++ more, none⟩ = .ok preflight) ∧
    ∀ exc, inspectFile file = .error exc → (∃ message, exc = .metCsvSchemaError message) ∨
      file.failure = some exc ∧ exc.isOSError = false ∧ isUnicodeError exc = false := by
  obtain ⟨text, failure⟩ := file
  refine ⟨?_, ?_, fun exc h => (inspect_error_of h).imp_right readHeader_raised⟩
  · rintro rfl preflight
    constructor
    · intro h
      obtain ⟨hrow, -⟩ := inspect_ok h
      obtain ⟨header, hfirst, hfits, hcolumns⟩ := readHeader_row_iff.mp hrow
      rw [inspectFile, hrow, hcolumns] at h
      exact ⟨header, hfirst, hfits, inspect_row_iff.mp h⟩
    · rintro ⟨header, hfirst, hfits, haccepted⟩
      rw [inspectFile, readHeader_row_iff.mpr ⟨header, hfirst, hfits, rfl⟩]
      exact inspect_row_iff.mpr haccepted
  · intro hfails preflight h more
    obtain ⟨exc, rfl⟩ := Option.ne_none_iff_exists'.mp hfails
    obtain ⟨hrow, -⟩ := inspect_ok h
    rw [inspectFile, hrow] at h
    rw [inspectFile, readHeader_failed hrow more]
    exact h

/-- The required columns, with quotes around each. -/
theorem inspectFile_iff_sample :
    inspectFile ⟨writeRow (metV1RequiredColumns.map String.toList) ++ ['\n'], none⟩ =
      .ok ⟨metV1RequiredColumns, []⟩ := by
  have hnames : (metV1RequiredColumns.map String.toList).map String.ofList = metV1RequiredColumns := by
    simp
  have hfirst : FirstRecord (writeRow (metV1RequiredColumns.map String.toList) ++ ['\n']) _ :=
    firstRecord_writeRow (by simp [metV1RequiredColumns]) rfl
  have hfits : Reader.Fits (metV1RequiredColumns.map String.toList) := by
    decide
  have haccepted : Accepted metV1RequiredColumns :=
    ⟨by decide, by decide, by decide, fun _ => id⟩
  refine ((inspectFile_iff _).1 rfl _).mpr ⟨_, hfirst, hfits, ?_, ?_⟩
  · rwa [hnames]
  · rw [hnames]
    rfl

/-- A text that begins with a quoted record is what its encoding is read as, with or without a byte order
    mark. -/
theorem decodeUtf8Sig_writeRow {header : List (List Char)} (hne : header ≠ []) {mark : Bytes}
    (hmark : mark = [] ∨ mark = [0xef, 0xbb, 0xbf]) (rest : List Char) :
    decodeUtf8Sig (mark ++ encodeUtf8 (writeRow header ++ rest)) = some (writeRow header ++ rest) := by
  rcases hmark with rfl | rfl
  · obtain ⟨cs, hcs⟩ := writeRow_head hne
    have hquote : encodeUtf8 (writeRow header ++ rest) = 0x22 :: encodeUtf8 (cs ++ rest) := by
      rw [hcs]
      rfl
    have hmark : (encodeUtf8 (writeRow header ++ rest)).take 3 ≠ [0xef, 0xbb, 0xbf] := by
      simp [hquote]
    rw [List.nil_append, decodeUtf8Sig, if_neg hmark, Json.decodeUtf8_encodeUtf8]
  · simp [decodeUtf8Sig, Json.decodeUtf8_encodeUtf8]

/-- Columns written with quotes around each are read back. -/
theorem inspectFile_writeRow {header : List (List Char)} (hne : header ≠ [])
    (hfits : Reader.Fits header) {mark : Bytes} (hmark : mark = [] ∨ mark = [0xef, 0xbb, 0xbf])
    {rest : List Char} (hrest : rest.head?.all isNewline = true) :
    ∃ text, decodeUtf8Sig (mark ++ encodeUtf8 (writeRow header ++ rest)) = some text ∧
      inspectFile ⟨text, none⟩ = inspect (.row (header.map String.ofList)) := by
  refine ⟨_, decodeUtf8Sig_writeRow hne hmark rest, ?_⟩
  rw [inspectFile, readHeader_row_iff.mpr ⟨header, firstRecord_writeRow hne hrest, hfits, rfl⟩]

end EvidenceCartographer.Sources.Met
