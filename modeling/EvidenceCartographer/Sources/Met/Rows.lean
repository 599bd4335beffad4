import EvidenceCartographer.Sources.Met.Csv

/-! How the reader classifies the rows of a snapshot.

    The result at a row depends on the rows before it, through the set of Object IDs seen. `Reads` is
    the invariant of the loop: the set holds exactly the Object IDs of the rows read, and every item
    yielded is classified by the rows before its own. Batches and record ids play no part in it. -/

namespace EvidenceCartographer.Sources.Met

open Python Domain Application Infrastructure

/-- The Object ID of a row, if it parses. -/
def CsvRow.objectId (row : CsvRow) : Option Int :=
  parsePositiveObjectId (row.payload.get "Object ID")

/-- The result of a row whose Object ID repeats. -/
def duplicateResult (n : Int) : ContractResult :=
  ⟨.rejected, [⟨"duplicate_object_id",
    "Object ID " ++ toString n ++ " repeats within this snapshot", some "Object ID"⟩]⟩

/-- The item of a row, given the rows before it. -/
structure Classified (fromisoformat : String → Bool) (context : MetEvidenceContext)
    (before : List CsvRow) (row : CsvRow) (item : BronzeRecordEvidence) : Prop
    extends FromRow context row item where
  quarantined : item.result.outcome = .quarantined ↔ row.objectId = none
  rejected : item.result.outcome = .rejected ↔
    ∃ n, row.objectId = some n ∧ ∃ earlier ∈ before, earlier.objectId = some n
  duplicate : ∀ n, row.objectId = some n → (∃ earlier ∈ before, earlier.objectId = some n) →
    item.result = duplicateResult n
  validated : item.result.outcome ≠ .rejected → ∀ record : RawRecord,
    record.payload = row.payload → item.result = MetRowContract.validate fromisoformat record
  accepted : item.result.outcome ≠ .quarantined → item.result.outcome ≠ .rejected →
    item.result.outcome = .accepted ∨ item.result.outcome = .acceptedWithWarnings

variable {fromisoformat : String → Bool} {context : MetEvidenceContext} {recordIds : Nat → UUID}

theorem validate_congr {record record' : RawRecord} (h : record.payload = record'.payload) :
    MetRowContract.validate fromisoformat record = MetRowContract.validate fromisoformat record' := by
  simp only [MetRowContract.validate, h]

theorem validate_outcome (fromisoformat : String → Bool) (record : RawRecord) :
    ((MetRowContract.validate fromisoformat record).outcome = .quarantined ↔
      parsePositiveObjectId (record.payload.get "Object ID") = none) ∧
    (MetRowContract.validate fromisoformat record).outcome ≠ .rejected := by
  unfold MetRowContract.validate
  split
  · rename_i hnone
    exact ⟨iff_of_true rfl hnone, by simp⟩
  · rename_i hsome
    dsimp only
    split <;> simp [hsome]

/-- The Object IDs seen are those of the rows read. -/
def Seen (seen : List Int) (done : List CsvRow) : Prop :=
  ∀ n, n ∈ seen ↔ ∃ row ∈ done, row.objectId = some n

/-- What `_evidence_for_row` does with the Object ID. -/
theorem evidenceForRow_result {id : UUID} {row : CsvRow} {n : Nat} {seen seen' : List Int}
    {item : BronzeRecordEvidence}
    (hok : evidenceForRow fromisoformat context id row.payload n seen = .ok (item, seen')) :
    ∃ record : RawRecord, record.payload = row.payload ∧
      classifyRow fromisoformat row.objectId record seen = (item.result, seen') := by
  simp only [evidenceForRow] at hok
  split at hok
  · obtain ⟨rfl, rfl⟩ := Prod.mk.inj (Except.ok.inj hok)
    exact ⟨_, rfl, rfl⟩
  · cases hok

/-- A row that the contract decides: nothing before it has its Object ID. -/
theorem Classified.of_contract {before : List CsvRow} {row : CsvRow} {item : BronzeRecordEvidence}
    {record : RawRecord} (hfrom : FromRow context row item) (hpayload : record.payload = row.payload)
    (hresult : item.result = MetRowContract.validate fromisoformat record)
    (hnew : ∀ n, row.objectId = some n → ¬ ∃ earlier ∈ before, earlier.objectId = some n) :
    Classified fromisoformat context before row item := by
  obtain ⟨hquarantined, hrejected⟩ := validate_outcome fromisoformat record
  rw [← hresult] at hquarantined hrejected
  rw [hpayload] at hquarantined
  refine { toFromRow := hfrom
           quarantined := hquarantined
           rejected := ⟨fun h => absurd h hrejected, ?_⟩
           duplicate := fun n hn hearlier => absurd hearlier (hnew n hn)
           validated := fun _ record' hrecord' => ?_
           accepted := fun h₁ h₂ => ?_ }
  · rintro ⟨n, hn, hearlier⟩
    exact absurd hearlier (hnew n hn)
  · rw [hresult]
    exact validate_congr (hpayload.trans hrecord'.symm)
  · cases houtcome : item.result.outcome with
    | accepted => exact .inl rfl
    | acceptedWithWarnings => exact .inr rfl
    | quarantined => exact absurd houtcome h₁
    | rejected => exact absurd houtcome h₂

/-- A row that repeats the Object ID of an earlier one. -/
theorem Classified.of_duplicate {before : List CsvRow} {row : CsvRow} {item : BronzeRecordEvidence}
    {n : Int} (hfrom : FromRow context row item) (hrow : row.objectId = some n)
    (hearlier : ∃ earlier ∈ before, earlier.objectId = some n)
    (hresult : item.result = duplicateResult n) :
    Classified fromisoformat context before row item := by
  have hrejected : item.result.outcome = .rejected := by rw [hresult]; rfl
  refine { toFromRow := hfrom
           quarantined := ⟨fun h => ?_, fun h => ?_⟩
           rejected := ⟨fun _ => ⟨n, hrow, hearlier⟩, fun _ => hrejected⟩
           duplicate := fun m hm _ => ?_
           validated := fun h => absurd hrejected h
           accepted := fun _ h => absurd hrejected h }
  · rw [hrejected] at h; cases h
  · rw [hrow] at h; cases h
  · rw [hrow] at hm; cases hm
    exact hresult

/-- One row, after the rows `done`. -/
theorem evidenceForRow_classified {id : UUID} {row : CsvRow} {n : Nat} {seen seen' : List Int}
    {done : List CsvRow} {item : BronzeRecordEvidence} (hn : row.sourceRowNumber = some n)
    (hseen : Seen seen done)
    (hok : evidenceForRow fromisoformat context id row.payload n seen = .ok (item, seen')) :
    Classified fromisoformat context done row item ∧ Seen seen' (done ++ [row]) := by
  have hfrom := evidenceForRow_ok hn hok
  obtain ⟨record, hpayload, hclassify⟩ := evidenceForRow_result hok
  -- whether its own Object ID is new or not, it is seen afterwards
  have hconcat : ∀ {ids : List Int}, (∀ m, m ∈ ids ↔ m ∈ seen ∨ row.objectId = some m) →
      Seen ids (done ++ [row]) := by
    intro ids hids m
    rw [hids, hseen m]
    simp [or_and_right, exists_or]
  cases hid : row.objectId with
  | none =>
    rw [hid] at hclassify hconcat
    obtain ⟨hresult, rfl⟩ := Prod.mk.inj hclassify
    refine ⟨.of_contract hfrom hpayload hresult.symm fun m hm => ?_, hconcat fun m => ?_⟩
    · rw [hid] at hm; cases hm
    · simp
  | some m =>
    rw [hid, classifyRow] at hclassify
    rw [hid] at hconcat
    split at hclassify
    · rename_i hmem
      obtain ⟨hresult, rfl⟩ := Prod.mk.inj hclassify
      refine ⟨.of_duplicate hfrom hid ((hseen m).mp hmem) hresult.symm, hconcat fun k => ?_⟩
      rw [Option.some.injEq, iff_self_or]
      rintro rfl
      exact hmem
    · rename_i hnew
      obtain ⟨hresult, rfl⟩ := Prod.mk.inj hclassify
      refine ⟨.of_contract hfrom hpayload hresult.symm fun k hk => ?_, hconcat fun k => ?_⟩
      · rw [hid] at hk
        cases hk
        exact fun h => hnew ((hseen m).mpr h)
      · rw [List.mem_cons, Option.some.injEq, or_comm, eq_comm]

/-- The invariant of the loop, after the rows `done`. -/
structure Reads (fromisoformat : String → Bool) (context : MetEvidenceContext) (s : ReaderState)
    (done : List CsvRow) : Prop where
  seen : Seen s.seenObjectIds done
  length : s.yielded.length = done.length
  classified : ∀ before row after, done = before ++ row :: after →
    ∃ item, s.yielded[before.length]? = some item ∧
      Classified fromisoformat context before row item

theorem Reads.empty : Reads fromisoformat context .empty [] where
  seen := by simp [Seen, ReaderState.empty]
  length := rfl
  classified before row after h := by simp at h

variable (fromisoformat context recordIds)

theorem reads_step : Yields fromisoformat context recordIds (Reads fromisoformat context) := by
  intro s done row n item seen h hn hok
  obtain ⟨hclassified, hseen⟩ := evidenceForRow_classified hn h.seen hok
  refine ⟨hseen, by rw [List.length_append, List.length_append, h.length]; rfl, ?_⟩
  intro before r after heq
  rcases List.eq_nil_or_concat after with rfl | ⟨after, last, rfl⟩
  · obtain ⟨rfl, hlast⟩ := List.append_inj' heq rfl
    obtain ⟨rfl, -⟩ := List.cons.inj hlast
    exact ⟨item, by rw [← h.length, List.getElem?_concat_length], hclassified⟩
  · rw [List.concat_eq_append, ← List.cons_append, ← List.append_assoc] at heq
    obtain ⟨rfl, -⟩ := List.append_inj' heq rfl
    obtain ⟨earlier, hearlier, hof⟩ := h.classified before r after rfl
    refine ⟨earlier, ?_, hof⟩
    rw [List.getElem?_append_left (List.getElem?_eq_some_iff.mp hearlier).1, hearlier]

/-- Rows that Polars numbers itself never stop the loop. -/
theorem yieldRows_complete {rows : List CsvRow}
    (h : ∀ row ∈ rows, ∃ n, row.sourceRowNumber = some n ∧ 2 ≤ n) (s : ReaderState) :
    (yieldRows fromisoformat context recordIds rows s).2 = none := by
  induction rows generalizing s with
  | nil => rfl
  | cons row rows ih =>
    obtain ⟨n, hn, hge⟩ := h row List.mem_cons_self
    simp only [yieldRows, hn, evidenceForRow, dif_pos hge]
    exact ih (fun r hr => h r (List.mem_cons_of_mem _ hr)) _

variable {fromisoformat context recordIds}

/-- The item with another record id: the ids are generated. -/
def withRecordId (id : UUID) (item : BronzeRecordEvidence) : BronzeRecordEvidence :=
  { item with provenance := { item.provenance with id := id } }

theorem evidenceForRow_withRecordId (id id' : UUID) (payload : Payload) (n : Nat)
    (seen : List Int) :
    (evidenceForRow fromisoformat context id payload n seen).map
        (fun r => (withRecordId id' r.1, r.2)) =
      evidenceForRow fromisoformat context id' payload n seen := by
  unfold evidenceForRow
  dsimp only
  split <;> rfl

section

variable (fromisoformat context recordIds)

/-- By induction on the rows: the ids go into the items, and nowhere else. -/
theorem yieldRows_withRecordId (id : UUID) (rows : List CsvRow) (s : ReaderState) :
    yieldRows fromisoformat context (fun _ => id) rows
        ⟨s.seenObjectIds, s.yielded.map (withRecordId id)⟩ =
      (⟨(yieldRows fromisoformat context recordIds rows s).1.seenObjectIds,
        (yieldRows fromisoformat context recordIds rows s).1.yielded.map (withRecordId id)⟩,
        (yieldRows fromisoformat context recordIds rows s).2) := by
  induction rows generalizing s with
  | nil => rfl
  | cons row rows ih =>
    simp only [yieldRows]
    cases row.sourceRowNumber with
    | none => rfl
    | some n =>
      dsimp only
      rw [← evidenceForRow_withRecordId (recordIds s.yielded.length) id]
      cases evidenceForRow fromisoformat context (recordIds s.yielded.length) row.payload n
          s.seenObjectIds with
      | error exc => rfl
      | ok r =>
        dsimp only [Except.map]
        rw [← ih ⟨r.2, s.yielded ++ [r.1]⟩, List.map_append]
        rfl

end

/-- The items of a scan depend on its rows only. -/
theorem iterEvidence_withRecordId (id : UUID) {scan scan' : CsvScan} (recordIds' : Nat → UUID)
    (hrows : scan'.rows = scan.rows) :
    (iterEvidence fromisoformat context recordIds' scan').items.map (withRecordId id) =
      (iterEvidence fromisoformat context recordIds scan).items.map (withRecordId id) := by
  have items_eq : ∀ (ids : Nat → UUID) (scan : CsvScan),
      (iterEvidence fromisoformat context ids scan).items.map (withRecordId id) =
        (yieldRows fromisoformat context (fun _ => id) scan.rows .empty).1.yielded := by
    intro ids scan
    have hmap := yieldRows_withRecordId fromisoformat context ids id scan.rows .empty
    simp only [iterEvidence, yieldBatches_eq]
    rw [show ReaderState.empty = ⟨ReaderState.empty.seenObjectIds,
      ReaderState.empty.yielded.map (withRecordId id)⟩ from rfl, hmap]
    rfl
  rw [items_eq, items_eq, hrows]

/-- Rows as Polars numbers them. -/
def Numbered (rows : List CsvRow) : Prop :=
  ∀ k row, rows[k]? = some row → row.sourceRowNumber = some (k + 2)

variable (fromisoformat context recordIds)

theorem iterEvidence_ending {scan : CsvScan} (hnumbers : Numbered scan.rows)
    (hscan : scan.failure = none) :
    (iterEvidence fromisoformat context recordIds scan).ending = none := by
  have hge : ∀ row ∈ scan.rows, ∃ n, row.sourceRowNumber = some n ∧ 2 ≤ n := by
    intro row hrow
    obtain ⟨k, hk⟩ := List.mem_iff_getElem?.mp hrow
    exact ⟨k + 2, hnumbers k row hk, Nat.le_add_left 2 k⟩
  have hnone := yieldRows_complete fromisoformat context recordIds hge .empty
  simp only [iterEvidence, yieldBatches_eq]
  rw [show scan.batches.flatten = scan.rows from rfl, hnone, hscan]
  rfl

/-- One item for each row, in order, classified by the rows before it, whatever the batches. -/
theorem rows_classified {scan : CsvScan} (hnumbers : Numbered scan.rows)
    (hscan : scan.failure = none) :
    (iterEvidence fromisoformat context recordIds scan).ending = none ∧
    (iterEvidence fromisoformat context recordIds scan).items.length = scan.rows.length ∧
    (∀ before row after, scan.rows = before ++ row :: after → ∃ item,
      (iterEvidence fromisoformat context recordIds scan).items[before.length]? = some item ∧
      Classified fromisoformat context before row item) ∧
    ∀ (scan' : CsvScan) recordIds' id, scan'.rows = scan.rows →
      (iterEvidence fromisoformat context recordIds' scan').items.map (withRecordId id) =
        (iterEvidence fromisoformat context recordIds scan).items.map (withRecordId id) := by
  have hending := iterEvidence_ending fromisoformat context recordIds hnumbers hscan
  obtain ⟨s, read, -, hreads, hitems, hall⟩ :=
    iterEvidence_keeps (reads_step fromisoformat context recordIds) .empty scan
  obtain rfl := hall hending
  rw [hitems]
  refine ⟨hending, hreads.length, hreads.classified, fun scan' recordIds' id hrows => ?_⟩
  rw [← hitems]
  exact iterEvidence_withRecordId id recordIds' hrows

/-- The context of the examples. -/
def sampleContext : MetEvidenceContext where
  museumId := sampleId
  ingestionRunId := sampleId
  observedAt := sampleInstant
  retrievedAt := sampleInstant
  sourceUrl := "https://museum.example/MetObjects.csv"
  rawUri := "s3://lake/bronze/source.csv"
  rawChecksum := sha256 []
  contractVersion := "1.0.0"

theorem sampleScan_numbered (order : Bool) : Numbered (sampleScan order).rows := by
  intro k row h
  rcases k with _ | _ | _ | _ | k <;> cases order <;> first | (cases h; rfl) | cases h

/-- The third row has the Object ID of the first, written otherwise. -/
theorem rows_classified_sample : ∃ item,
    (iterEvidence (fun _ => true) sampleContext (fun _ => sampleId) (sampleScan true)).items[2]? =
      some item ∧ item.result = duplicateResult 7 := by
  have hclassified := (rows_classified (fun _ => true) sampleContext (fun _ => sampleId)
    (sampleScan_numbered true) rfl).2.2.1
  obtain ⟨item, hitem, hof⟩ := hclassified
    [⟨some 2, samplePayload "7" "A sword"⟩, ⟨some 3, samplePayload "8" ""⟩] _ _ rfl
  exact ⟨item, hitem, hof.duplicate 7 (by decide +kernel) ⟨_, List.mem_cons_self, by decide +kernel⟩⟩

end EvidenceCartographer.Sources.Met
