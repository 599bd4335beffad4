import EvidenceCartographer.Infrastructure.Staging
import EvidenceCartographer.Sources.Met.Contract
import Mathlib.Data.List.Forall2

/-! The evidence reader: one evidence item for each row of a snapshot.

    `polars.scan_csv` and the Pandera check of its batches are outside: a `CsvScan` is the batches
    they let through, and how the scan ended. The reader is a generator; what iterating over it gives
    is an `EvidenceIterable`. -/

namespace EvidenceCartographer.Sources.Met

open Python Domain Application Infrastructure

structure MetEvidenceContext where
  museumId : UUID
  ingestionRunId : UUID
  observedAt : AwareDatetime
  retrievedAt : AwareDatetime
  sourceUrl : String
  rawUri : String
  rawChecksum : Sha256Hex
  contractVersion : String

/-- A row that the scan yields, with its number where that is an `int`. -/
structure CsvRow where
  sourceRowNumber : Option Nat
  payload : Payload

/-- Why a scan stopped: one of the exceptions `iter_evidence` translates, by its text, or any other. -/
inductive ScanFailure where
  | unreadable (message : String)
  | raised (exc : Exc)

structure CsvScan where
  batches : List (List CsvRow)
  failure : Option ScanFailure

/-- All rows, in order. -/
def CsvScan.rows (scan : CsvScan) : List CsvRow := scan.batches.flatten

/-- A Pydantic `ValidationError`, which is a `ValueError`, with the first line of its text. -/
def validationError (model : String) : Exc :=
  .valueError "ValidationError" ("1 validation error for " ++ model)

/-- What the reader keeps while it iterates: the Object IDs it has seen, and what it has yielded. -/
structure ReaderState where
  seenObjectIds : List Int
  yielded : List BronzeRecordEvidence

def ReaderState.empty : ReaderState := ⟨[], []⟩

section

variable (fromisoformat : String → Bool) (context : MetEvidenceContext) (recordIds : Nat → UUID)

/-- The identity of a row: its Object ID, or its place in the run. -/
def sourceRecordId (objectId : Option Int) (sourceRowNumber : Nat) : String :=
  match objectId with
  | some n => toString n
  | none => context.ingestionRunId.str ++ ":row:" ++ toString sourceRowNumber

/-- The result of a row, and the Object IDs seen after it. -/
def classifyRow (objectId : Option Int) (record : RawRecord) (seenObjectIds : List Int) :
    ContractResult × List Int :=
  match objectId with
  | none => (MetRowContract.validate fromisoformat record, seenObjectIds)
  | some n =>
    if n ∈ seenObjectIds then
      (⟨.rejected, [⟨"duplicate_object_id",
        "Object ID " ++ toString n ++ " repeats within this snapshot", some "Object ID"⟩]⟩,
        seenObjectIds)
    else (MetRowContract.validate fromisoformat record, n :: seenObjectIds)

/-- The `SourceRecord` of a row. -/
def provenance (id : UUID) (payload : Payload) (recordId : String) (outcome : ContractOutcome) :
    SourceRecord where
  id := id
  createdAt := context.observedAt
  museumId := context.museumId
  source := .met
  sourceRecordId := recordId
  contractVersion := context.contractVersion
  ingestionRunId := context.ingestionRunId
  observedAt := context.observedAt
  sourceUrl := context.sourceUrl
  retrievalStatus := .cached
  retrievedAt := context.retrievedAt
  rawUri := context.rawUri
  acquisitionContext := ⟨.fullSnapshot⟩
  rawChecksum := some context.rawChecksum.text
  attributionText := (payload.get "Artist Display Name").filter (· ≠ "")
  outcome := outcome

/-- `_evidence_for_row`, with the Object IDs seen after it. -/
def evidenceForRow (id : UUID) (payload : Payload) (sourceRowNumber : Nat)
    (seenObjectIds : List Int) : Except Exc (BronzeRecordEvidence × List Int) :=
  let objectId := parsePositiveObjectId (payload.get "Object ID")
  let recordId := sourceRecordId context objectId sourceRowNumber
  if h : 2 ≤ sourceRowNumber then
    let record : RawRecord := ⟨recordId, some sourceRowNumber, payload, by rintro _ ⟨⟩; exact h⟩
    let (result, seen) := classifyRow fromisoformat objectId record seenObjectIds
    .ok (⟨provenance context id payload recordId result.outcome, result⟩, seen)
  else .error (validationError "RawRecord")

/-- The loop over the rows of a batch. -/
def yieldRows : List CsvRow → ReaderState → ReaderState × Option ScanFailure
  | [], s => (s, none)
  | row :: rows, s =>
    match row.sourceRowNumber with
    | none => (s, some (.raised
        (.metCsvParseError "Polars emitted a noninteger source row number")))
    | some n =>
      match evidenceForRow fromisoformat context (recordIds s.yielded.length) row.payload n
          s.seenObjectIds with
      | .error exc => (s, some (.raised exc))
      | .ok (item, seen) => yieldRows rows ⟨seen, s.yielded ++ [item]⟩

/-- The loop over the batches. -/
def yieldBatches : List (List CsvRow) → ReaderState → ReaderState × Option ScanFailure
  | [], s => (s, none)
  | batch :: batches, s =>
    match yieldRows fromisoformat context recordIds batch s with
    | (s', some failure) => (s', some failure)
    | (s', none) => yieldBatches batches s'

/-- The `except` clauses of `iter_evidence`. -/
def readerError : ScanFailure → Exc
  | .unreadable message => .metCsvParseError ("could not parse Met CSV records: " ++ message)
  | .raised exc =>
    if exc.isOSError then .metCsvParseError ("could not parse Met CSV records: " ++ exc.str)
    else exc

/-- `MetCsvEvidenceReader.iter_evidence`. -/
def iterEvidence (scan : CsvScan) : EvidenceIterable :=
  let (s, failure) := yieldBatches fromisoformat context recordIds scan.batches .empty
  ⟨s.yielded, (failure <|> scan.failure).map readerError⟩

end

/-- An item that names the run, the artifact and the contract of its context. -/
structure FromContext (context : MetEvidenceContext) (item : BronzeRecordEvidence) : Prop where
  source : item.provenance.source = .met
  run : item.provenance.ingestionRunId = context.ingestionRunId
  contract : item.provenance.contractVersion = context.contractVersion
  rawUri : item.provenance.rawUri = context.rawUri
  rawChecksum : item.provenance.rawChecksum = some context.rawChecksum.text
  outcome : item.provenance.outcome = item.result.outcome

/-- The item of a row. -/
structure FromRow (context : MetEvidenceContext) (row : CsvRow) (item : BronzeRecordEvidence) :
    Prop extends FromContext context item where
  recordId : ∃ n, row.sourceRowNumber = some n ∧ item.provenance.sourceRecordId =
    sourceRecordId context (parsePositiveObjectId (row.payload.get "Object ID")) n

variable {fromisoformat : String → Bool} {context : MetEvidenceContext} {recordIds : Nat → UUID}

theorem evidenceForRow_ok {id : UUID} {row : CsvRow} {n : Nat} {seen seen' : List Int}
    {item : BronzeRecordEvidence} (hn : row.sourceRowNumber = some n)
    (hok : evidenceForRow fromisoformat context id row.payload n seen = .ok (item, seen')) :
    FromRow context row item := by
  simp only [evidenceForRow] at hok
  split at hok
  · cases hok
    exact ⟨⟨rfl, rfl, rfl, rfl, rfl, rfl⟩, n, hn, rfl⟩
  · cases hok

/-- One row of the loop, from a state in which the rows `done` have been read. -/
def Yields (fromisoformat : String → Bool) (context : MetEvidenceContext) (recordIds : Nat → UUID)
    (R : ReaderState → List CsvRow → Prop) : Prop :=
  ∀ s done row n item seen, R s done → row.sourceRowNumber = some n →
    evidenceForRow fromisoformat context (recordIds s.yielded.length) row.payload n s.seenObjectIds =
      .ok (item, seen) → R ⟨seen, s.yielded ++ [item]⟩ (done ++ [row])

/-- By induction on the rows: each step reads one row more, or stops the loop. -/
theorem yieldRows_keeps {R : ReaderState → List CsvRow → Prop}
    (hstep : Yields fromisoformat context recordIds R) {rows done : List CsvRow}
    {s s' : ReaderState} {failure : Option ScanFailure} (h : R s done)
    (hrun : yieldRows fromisoformat context recordIds rows s = (s', failure)) :
    ∃ read, read <+: rows ∧ R s' (done ++ read) ∧ (failure = none → read = rows) := by
  induction rows generalizing s done with
  | nil =>
    cases hrun
    exact ⟨[], List.nil_prefix, by simpa using h, fun _ => rfl⟩
  | cons row rows ih =>
    simp only [yieldRows] at hrun
    have stopped : ∀ {failure' : ScanFailure}, (s, some failure') = (s', failure) →
        ∃ read, read <+: row :: rows ∧ R s' (done ++ read) ∧
          (failure = none → read = row :: rows) := by
      rintro failure' ⟨⟩
      exact ⟨[], List.nil_prefix, by simpa using h, fun hnone => by cases hnone⟩
    split at hrun
    · exact stopped hrun
    rename_i n hn
    split at hrun
    · exact stopped hrun
    rename_i item seen hitem
    obtain ⟨read, hread, hof, hall⟩ := ih (hstep _ _ _ _ _ _ h hn hitem) hrun
    refine ⟨row :: read, List.cons_prefix_cons.mpr ⟨rfl, hread⟩, by simpa using hof, fun hnone => ?_⟩
    rw [hall hnone]

theorem yieldRows_append (rows more : List CsvRow) (s : ReaderState) :
    yieldRows fromisoformat context recordIds (rows ++ more) s =
      match yieldRows fromisoformat context recordIds rows s with
      | (s', some failure) => (s', some failure)
      | (s', none) => yieldRows fromisoformat context recordIds more s' := by
  induction rows generalizing s with
  | nil => rfl
  | cons row rows ih =>
    simp only [List.cons_append, yieldRows]
    split
    · rfl
    split
    · rfl
    · exact ih _

/-- The batches are read as one list of rows. -/
theorem yieldBatches_eq (batches : List (List CsvRow)) (s : ReaderState) :
    yieldBatches fromisoformat context recordIds batches s =
      yieldRows fromisoformat context recordIds batches.flatten s := by
  induction batches generalizing s with
  | nil => rfl
  | cons batch batches ih =>
    rw [yieldBatches, List.flatten_cons, yieldRows_append]
    split
    · rfl
    · exact ih _

/-- The rule for a whole iteration: it has read a prefix of the rows, and all of them if it ends
    normally. -/
theorem iterEvidence_keeps {R : ReaderState → List CsvRow → Prop}
    (hstep : Yields fromisoformat context recordIds R) (h : R .empty []) (scan : CsvScan) :
    ∃ s read, read <+: scan.rows ∧ R s read ∧
      (iterEvidence fromisoformat context recordIds scan).items = s.yielded ∧
      ((iterEvidence fromisoformat context recordIds scan).ending = none → read = scan.rows) := by
  rcases hrun : yieldBatches fromisoformat context recordIds scan.batches .empty with ⟨s, failure⟩
  rw [yieldBatches_eq] at hrun
  obtain ⟨read, hread, hof, hall⟩ := yieldRows_keeps hstep h hrun
  simp only [iterEvidence, yieldBatches_eq, hrun]
  refine ⟨s, read, hread, hof, rfl, fun hending => hall ?_⟩
  rw [Option.map_eq_none_iff] at hending
  cases failure with
  | none => rfl
  | some failure => cases hending

section

variable (fromisoformat context recordIds)

/-- What iterating gives: the items of a prefix of the rows, and of all of them if it ends normally. -/
theorem iterEvidence_of (scan : CsvScan) : ∃ read, read <+: scan.rows ∧
    List.Forall₂ (FromRow context) read
      (iterEvidence fromisoformat context recordIds scan).items ∧
    ((iterEvidence fromisoformat context recordIds scan).ending = none → read = scan.rows) := by
  have hstep : Yields fromisoformat context recordIds fun s done =>
      List.Forall₂ (FromRow context) done s.yielded :=
    fun s done row n item seen h hn hitem => List.rel_append h (.cons (evidenceForRow_ok hn hitem) .nil)
  obtain ⟨s, read, hread, hof, hitems, hall⟩ := iterEvidence_keeps hstep .nil scan
  exact ⟨read, hread, hitems ▸ hof, hall⟩

end

/-- A scan that is read to its end yields one item for each row. -/
theorem iterEvidence_complete {scan : CsvScan}
    (hending : (iterEvidence fromisoformat context recordIds scan).ending = none) :
    List.Forall₂ (FromRow context) scan.rows
      (iterEvidence fromisoformat context recordIds scan).items := by
  obtain ⟨read, -, hof, hall⟩ := iterEvidence_of fromisoformat context recordIds scan
  rw [hall hending] at hof
  exact hof

/-- Every item names its context. -/
theorem iterEvidence_context {scan : CsvScan} {item : BronzeRecordEvidence}
    (hitem : item ∈ (iterEvidence fromisoformat context recordIds scan).items) :
    FromContext context item := by
  obtain ⟨read, -, hof, -⟩ := iterEvidence_of fromisoformat context recordIds scan
  have hboth : List.Forall₂ (fun item row => FromContext context item ∧ FromRow context row item)
      (iterEvidence fromisoformat context recordIds scan).items read :=
    hof.flip.imp fun _ _ hrow => ⟨hrow.toFromContext, hrow⟩
  exact ((List.forall₂_and_left _ _).mp hboth).1 item hitem

section Sample

/-- The columns of the contract, and one that it does not know. -/
def sampleColumns : List String := metV1RequiredColumns ++ ["Shelf"]

/-- A row, complete but for these two cells. -/
def sampleCells (objectId title : String) : List String :=
  [objectId, "O.7", "True", "Arms", "Sword", title, "A smith", "1400", "Swords",
    "https://museum.example/7", "2026-07-27", "Museum", "3"]

def samplePayload (objectId title : String) : Payload :=
  sampleColumns.zip ((sampleCells objectId title).map some)

/-- The Object IDs and the titles of four rows, in two orders: two have one Object ID, and only the
    first of these has a title; one has no Object ID. -/
def sampleTable : Bool → List (String × String)
  | true => [("7", "A sword"), ("8", ""), (" 007 ", ""), ("", "A sword")]
  | false => [("", "A sword"), (" 007 ", ""), ("8", ""), ("7", "A sword")]

/-- The rows come in two batches. -/
def sampleScan (order : Bool) : CsvScan :=
  let rows := (sampleTable order).mapIdx fun k cells =>
    ⟨some (k + 2), samplePayload cells.1 cells.2⟩
  ⟨[rows.take 3, rows.drop 3], none⟩

def sampleAccepted : ContractResult := ⟨.accepted, []⟩

def sampleWarned : ContractResult :=
  ⟨.acceptedWithWarnings, [⟨"missing_recommended_value", "Title is blank", some "Title"⟩]⟩

def sampleRepeated : ContractResult :=
  ⟨.rejected, [⟨"duplicate_object_id", "Object ID 7 repeats within this snapshot",
    some "Object ID"⟩]⟩

def sampleUnidentified : ContractResult :=
  ⟨.quarantined, [⟨"invalid_object_id", "Object ID must be a positive integer",
    some "Object ID"⟩]⟩

theorem sample_objectIds : (sampleTable true).map (fun cells =>
    parsePositiveObjectId ((samplePayload cells.1 cells.2).get "Object ID")) =
      [some 7, some 8, some 7, none] := by
  decide +kernel

theorem sample_validated : (sampleTable true).map (fun cells =>
    MetRowContract.validate (fun _ => true)
      ⟨"", none, samplePayload cells.1 cells.2, nofun⟩) =
        [sampleAccepted, sampleWarned, sampleWarned, sampleUnidentified] := by
  decide +kernel

/-- What the reader makes of a row with this result. -/
def sampleItemOf (context : MetEvidenceContext) (id : UUID) (objectId title recordId : String)
    (result : ContractResult) : BronzeRecordEvidence :=
  ⟨provenance context id (samplePayload objectId title) recordId result.outcome, result⟩

/-- The evidence of the rows. -/
def sampleItems (context : MetEvidenceContext) (recordIds : Nat → UUID) :
    Bool → List BronzeRecordEvidence
  | true =>
    [sampleItemOf context (recordIds 0) "7" "A sword" "7" sampleAccepted,
      sampleItemOf context (recordIds 1) "8" "" "8" sampleWarned,
      sampleItemOf context (recordIds 2) " 007 " "" "7" sampleRepeated,
      sampleItemOf context (recordIds 3) "" "A sword" (context.ingestionRunId.str ++ ":row:5")
        sampleUnidentified]
  | false =>
    [sampleItemOf context (recordIds 0) "" "A sword" (context.ingestionRunId.str ++ ":row:2")
        sampleUnidentified,
      sampleItemOf context (recordIds 1) " 007 " "" "7" sampleWarned,
      sampleItemOf context (recordIds 2) "8" "" "8" sampleWarned,
      sampleItemOf context (recordIds 3) "7" "A sword" "7" sampleRepeated]

theorem sample_items (context : MetEvidenceContext) (recordIds : Nat → UUID) (order : Bool)
    (failure : Option ScanFailure) :
    iterEvidence (fun _ => true) context recordIds ⟨(sampleScan order).batches, failure⟩ =
      ⟨sampleItems context recordIds order, failure.map readerError⟩ := by
  have hids := sample_objectIds
  have hvalidated := sample_validated
  simp only [sampleTable, List.map_cons, List.map_nil, List.cons.injEq, and_true] at hids hvalidated
  obtain ⟨hid₁, hid₂, hid₃, hid₄⟩ := hids
  obtain ⟨hvalid₁, hvalid₂, hvalid₃, hvalid₄⟩ := hvalidated
  -- the contract looks at the payload only
  have hresult₁ : ∀ recordId n h, MetRowContract.validate (fun _ => true)
    ⟨recordId, n, samplePayload "7" "A sword", h⟩ = sampleAccepted := fun _ _ _ => hvalid₁
  have hresult₂ : ∀ recordId n h, MetRowContract.validate (fun _ => true)
    ⟨recordId, n, samplePayload "8" "", h⟩ = sampleWarned := fun _ _ _ => hvalid₂
  have hresult₃ : ∀ recordId n h, MetRowContract.validate (fun _ => true)
    ⟨recordId, n, samplePayload " 007 " "", h⟩ = sampleWarned := fun _ _ _ => hvalid₃
  have hresult₄ : ∀ recordId n h, MetRowContract.validate (fun _ => true)
    ⟨recordId, n, samplePayload "" "A sword", h⟩ = sampleUnidentified := fun _ _ _ => hvalid₄
  have hseven : toString (7 : Int) = "7" := by decide +kernel
  have height : toString (8 : Int) = "8" := by decide +kernel
  have hfive : toString (5 : Nat) = "5" := by decide +kernel
  have htwo : toString (2 : Nat) = "2" := by decide +kernel
  have hplace : ":row:" ++ "5" = ":row:5" ∧ ":row:" ++ "2" = ":row:2" := by decide +kernel
  cases order with
  | true =>
    have hrows : (sampleScan true).batches.flatten = [⟨some 2, samplePayload "7" "A sword"⟩,
      ⟨some 3, samplePayload "8" ""⟩, ⟨some 4, samplePayload " 007 " ""⟩,
      ⟨some 5, samplePayload "" "A sword"⟩] := rfl
    simp only [iterEvidence, yieldBatches_eq, hrows, yieldRows, evidenceForRow, classifyRow,
      ReaderState.empty, sourceRecordId, hid₁, hid₂, hid₃, hid₄, hresult₁, hresult₂, hresult₄,
      hseven, height, hfive, String.append_assoc, hplace]
    simp [sampleItems, sampleItemOf, sampleRepeated]
  | false =>
    have hrows : (sampleScan false).batches.flatten = [⟨some 2, samplePayload "" "A sword"⟩,
      ⟨some 3, samplePayload " 007 " ""⟩, ⟨some 4, samplePayload "8" ""⟩,
      ⟨some 5, samplePayload "7" "A sword"⟩] := rfl
    simp only [iterEvidence, yieldBatches_eq, hrows, yieldRows, evidenceForRow, classifyRow,
      ReaderState.empty, sourceRecordId, hid₁, hid₂, hid₃, hid₄, hresult₂, hresult₃, hresult₄,
      hseven, height, htwo, String.append_assoc, hplace]
    simp [sampleItems, sampleItemOf, sampleRepeated]

/-- Which outcomes they have depends on the order. -/
theorem sample_outcomes (context : MetEvidenceContext) (recordIds : Nat → UUID) (order : Bool) :
    ContractOutcome.members.map (outcomeCount (sampleItems context recordIds order)) =
      if order then [1, 1, 1, 1] else [0, 2, 1, 1] := by
  cases order <;> rfl

end Sample

end EvidenceCartographer.Sources.Met
