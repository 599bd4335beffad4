import EvidenceCartographer.Sources.Met.Rows
import EvidenceCartographer.Sources.Met.Service
import Mathlib.Data.Finset.Card

/-! The totals of a run do not depend on the order of its rows.

    Which row is rejected depends on the order, how many are does not: of the rows with one Object ID
    all but one. `Tallied` counts this along the loop, against the set of Object IDs seen. -/

namespace EvidenceCartographer.Sources.Met

open Python Domain Application Infrastructure Concurrency

/-- The Object IDs of the rows that have one. -/
def objectIds (rows : List CsvRow) : List Int := rows.filterMap (·.objectId)

/-- The totals of these rows, in terms of their Object IDs. -/
structure Totals (counts : OutcomeCounts) (rows : List CsvRow) : Prop where
  quarantined : counts .quarantined = rows.countP fun row => row.objectId.isNone
  rejected : counts .rejected = (objectIds rows).length - (objectIds rows).toFinset.card
  evaluated : counts .accepted + counts .acceptedWithWarnings = (objectIds rows).toFinset.card
  sum : (ContractOutcome.members.map counts).sum = rows.length

/-- The counts of the loop after the rows `done`, against the Object IDs seen. -/
structure Tallied (s : ReaderState) (done : List CsvRow) : Prop where
  seen : Seen s.seenObjectIds done
  length : s.yielded.length = done.length
  nodup : s.seenObjectIds.Nodup
  quarantined : outcomeCount s.yielded .quarantined = done.countP fun row => row.objectId.isNone
  rejected : outcomeCount s.yielded .rejected + s.seenObjectIds.length = (objectIds done).length
  evaluated : outcomeCount s.yielded .accepted + outcomeCount s.yielded .acceptedWithWarnings =
    s.seenObjectIds.length

theorem Tallied.empty : Tallied .empty [] where
  seen := by simp [Seen, ReaderState.empty]
  length := rfl
  nodup := List.nodup_nil
  quarantined := rfl
  rejected := rfl
  evaluated := rfl

variable (fromisoformat : String → Bool) (context : MetEvidenceContext) (recordIds : Nat → UUID)

/-- A row adds to one count, and to the Object IDs seen if it is evaluated. -/
theorem tallied_step : Yields fromisoformat context recordIds Tallied := by
  intro s done row n item seen h hn hok
  obtain ⟨hclassified, hseen⟩ := evidenceForRow_classified hn h.seen hok
  obtain ⟨record, hpayload, hclassify⟩ := evidenceForRow_result hok
  have hcount := outcomeCount_concat s.yielded hclassified.outcome
  have hlength : (s.yielded ++ [item]).length = (done ++ [row]).length := by
    rw [List.length_append, List.length_append, h.length]; rfl
  obtain ⟨hquarantined, hrejected, hevaluated⟩ := h.quarantined, h.rejected, h.evaluated
  cases hid : row.objectId with
  | none =>
    have houtcome := hclassified.quarantined.mpr hid
    have hsame : seen = s.seenObjectIds := by
      rw [hid] at hclassify
      exact (Prod.mk.inj hclassify).2.symm
    rw [houtcome] at hcount
    refine ⟨hseen, hlength, hsame ▸ h.nodup, ?_, ?_, ?_⟩
    · simp [hcount, hquarantined, hid]
    · simp [hcount, hsame, objectIds, hid] at hrejected ⊢
      exact hrejected
    · simp [hcount, hsame, hevaluated]
  | some m =>
    rw [hid, classifyRow] at hclassify
    split at hclassify
    · rename_i hmem
      obtain ⟨hresult, rfl⟩ := Prod.mk.inj hclassify
      have houtcome : item.result.outcome = .rejected := by rw [← hresult]
      rw [houtcome] at hcount
      refine ⟨hseen, hlength, h.nodup, ?_, ?_, ?_⟩
      · simp [hcount, hquarantined, hid]
      · simp [hcount, objectIds, hid] at hrejected ⊢
        omega
      · simp [hcount, hevaluated]
    · rename_i hnew
      obtain ⟨hresult, rfl⟩ := Prod.mk.inj hclassify
      have hnot : item.result.outcome ≠ .rejected := by
        rw [← hresult]
        exact (validate_outcome fromisoformat record).2
      have hparsed : item.result.outcome ≠ .quarantined := by
        intro hbad
        rw [hclassified.quarantined.mp hbad] at hid
        cases hid
      refine ⟨hseen, hlength, List.nodup_cons.mpr ⟨hnew, h.nodup⟩, ?_, ?_, ?_⟩
      · simp [hcount, Function.update_of_ne (Ne.symm hparsed), hquarantined, hid]
      · simp [hcount, Function.update_of_ne (Ne.symm hnot), objectIds, hid] at hrejected ⊢
        omega
      · rcases hclassified.accepted hparsed hnot with houtcome | houtcome
        · simp [hcount, houtcome] at hevaluated ⊢
          omega
        · simp [hcount, houtcome] at hevaluated ⊢
          omega

/-- The Object IDs seen, without order. -/
theorem Tallied.card {s : ReaderState} {done : List CsvRow} (h : Tallied s done) :
    s.seenObjectIds.length = (objectIds done).toFinset.card := by
  rw [← List.toFinset_card_of_nodup h.nodup]
  congr 1
  ext n
  rw [List.mem_toFinset, List.mem_toFinset, h.seen n, objectIds, List.mem_filterMap]

theorem Tallied.totals {s : ReaderState} {done : List CsvRow} (h : Tallied s done) :
    Totals (outcomeCount s.yielded) done := by
  have hcard := h.card
  obtain ⟨hquarantined, hrejected, hevaluated⟩ := h.quarantined, h.rejected, h.evaluated
  refine ⟨hquarantined, by omega, by omega, ?_⟩
  -- a row has an Object ID or it has none
  have hparsed : (objectIds done).length = done.countP fun row => ¬ row.objectId.isNone := by
    rw [objectIds, List.length_filterMap_eq_countP]
    refine List.countP_congr fun row _ => ?_
    cases row.objectId <;> simp
  have hlength := List.length_eq_countP_add_countP (fun row => row.objectId.isNone) (l := done)
  simp only [ContractOutcome.members, List.map_cons, List.map_nil, List.sum_cons, List.sum_nil]
  omega

variable {fromisoformat context recordIds}

/-- The totals of a scan that is read to its end. -/
theorem iterEvidence_totals {scan : CsvScan}
    (hall : (iterEvidence fromisoformat context recordIds scan).items.length = scan.rows.length) :
    Totals (outcomeCount (iterEvidence fromisoformat context recordIds scan).items) scan.rows := by
  obtain ⟨s, done, hread, htallied, hitems, -⟩ :=
    iterEvidence_keeps (tallied_step fromisoformat context recordIds) .empty scan
  rw [hitems] at hall ⊢
  rw [htallied.length] at hall
  rw [← hread.eq_of_length hall]
  exact htallied.totals

/-- The rows without their order and their numbers. -/
def SameRows (rows rows' : List CsvRow) : Prop :=
  (rows.map (·.payload)).Perm (rows'.map (·.payload))

/-- The totals see no order. -/
theorem Totals.permute {counts counts' : OutcomeCounts} {rows rows' : List CsvRow}
    (h : Totals counts rows) (h' : Totals counts' rows') (hrows : SameRows rows rows') :
    counts .quarantined = counts' .quarantined ∧ counts .rejected = counts' .rejected ∧
    counts .accepted + counts .acceptedWithWarnings =
      counts' .accepted + counts' .acceptedWithWarnings := by
  have hids : (objectIds rows).Perm (objectIds rows') := by
    have hperm := hrows.filterMap fun payload => parsePositiveObjectId (payload.get "Object ID")
    rw [List.filterMap_map, List.filterMap_map] at hperm
    exact hperm
  have hnone : (rows.countP fun row => row.objectId.isNone) =
      rows'.countP fun row => row.objectId.isNone := by
    have hperm := hrows.countP_eq fun payload =>
      (parsePositiveObjectId (payload.get "Object ID")).isNone
    rw [List.countP_map, List.countP_map] at hperm
    exact hperm
  rw [h.quarantined, h'.quarantined, h.rejected, h'.rejected, h.evaluated, h'.evaluated, hnone,
    hids.length_eq, List.toFinset_eq_of_perm _ _ hids]
  exact ⟨rfl, rfl, rfl⟩

section Run

variable {ι ι' σ σ' : Type} {S S' : Signature} {service : MetSnapshotIngestionService S}
  {service' : MetSnapshotIngestionService S'} {inputs inputs' : RunInputs} {sys : System ι S σ}
  {sys' : System ι' S' σ'} {i : ι} {i' : ι'} {holds untouched} {holds' untouched'}
  {result result' : MetSnapshotIngestionResult} {preflight preflight' : MetCsvPreflightResult}

/-- The committed manifest of a run, with the counts the run reports. -/
def ManifestReports (service : MetSnapshotIngestionService S)
    (holds : ObjectKey → Bytes → σ → Prop) (result : MetSnapshotIngestionResult) (s : σ) : Prop :=
  ∃ (keys : BronzeObjectKeys) (m : BronzeCompletionManifest),
    result.receipt.completionManifestUri = service.bronzeStore.uri keys.completionManifest ∧
    holds (service.bronzeStore.bucketName, keys.completionManifest) (canonicalJson m.modelDump) s ∧
    m.outcomeCounts = result.outcomeCounts ∧ m.totalRecords = result.totalRecords

/-- What a returned run reports are the totals of its rows, and so says its manifest. -/
theorem RunAgreement.totals {s : σ} (hpreflight : inspect inputs.header = .ok preflight)
    (h : RunAgreement service inputs holds result s) :
    Totals result.outcomeCounts (service.scanOf inputs preflight).rows ∧
      ManifestReports service holds result s := by
  obtain ⟨downloaded, preflight', artifact, target, observedAt, keys, m, -, hpreflight', -, -, -, -,
    hagrees⟩ := h
  obtain rfl := Except.ok.inj (hpreflight.symm.trans hpreflight')
  refine ⟨?_, keys, m, hagrees.uris.2.2, hagrees.marker_holds, hagrees.counts.symm,
    hagrees.total.symm⟩
  rw [hagrees.counts, hagrees.line_counts]
  exact iterEvidence_totals hagrees.lines.2.1

/-- Two returned runs over the same rows in any two orders report the same totals. -/
theorem run_totals [DecidableEq ι] [DecidableEq ι'] {dirs : ι → MetDirectory} {s₀ : σ}
    {dirs' : ι' → MetDirectory} {s₀' : σ'}
    {procs : ι → Program (machineSignature.sum S) Exc MetSnapshotIngestionResult}
    {procs' : ι' → Program (machineSignature.sum S') Exc MetSnapshotIngestionResult}
    {c : Config ι (machineSignature.sum S) ((ι → MetDirectory) × σ) Exc MetSnapshotIngestionResult}
    {c' : Config ι' (machineSignature.sum S') ((ι' → MetDirectory) × σ') Exc
      MetSnapshotIngestionResult}
    (hkeeps : service.bronzeStore.client.Keeps sys i holds untouched)
    (hkeeps' : service'.bronzeStore.client.Keeps sys' i' holds' untouched')
    (hr : ((machineSystem ι).prod sys).Reachable ⟨(dirs, s₀), procs⟩ c)
    (hr' : ((machineSystem ι').prod sys').Reachable ⟨(dirs', s₀'), procs'⟩ c')
    (hrun : procs i = service.run inputs) (hrun' : procs' i' = service'.run inputs')
    (hret : c.procs i = .ret result) (hret' : c'.procs i' = .ret result')
    (hpreflight : inspect inputs.header = .ok preflight)
    (hpreflight' : inspect inputs'.header = .ok preflight')
    (hrows : SameRows (service.scanOf inputs preflight).rows (service'.scanOf inputs' preflight').rows) :
    Totals result.outcomeCounts (service.scanOf inputs preflight).rows ∧
    ManifestReports service holds result c.shared.2 ∧
    result.outcomeCounts .quarantined = result'.outcomeCounts .quarantined ∧
    result.outcomeCounts .rejected = result'.outcomeCounts .rejected ∧
    result.outcomeCounts .accepted + result.outcomeCounts .acceptedWithWarnings =
      result'.outcomeCounts .accepted + result'.outcomeCounts .acceptedWithWarnings := by
  obtain ⟨htotals, hmanifest⟩ := (agreement_of_returned hkeeps hr hrun hret).totals hpreflight
  obtain ⟨htotals', -⟩ := (agreement_of_returned hkeeps' hr' hrun' hret').totals hpreflight'
  exact ⟨htotals, hmanifest, htotals.permute htotals' hrows⟩

end Run

/-- The two orders of the sample table, of which one is the reverse of the other. -/
theorem sampleScan_sameRows : SameRows (sampleScan true).rows (sampleScan false).rows :=
  (List.reverse_perm _).symm

/-- Two runs over the sample table, in its two orders. Of the two rows with one Object ID the later one
    is rejected, so one order accepts a row and the other does not. -/
theorem run_totals_sample : ∃ (c : Config Bool (machineSignature.sum httpSignature)
      ((Bool → MetDirectory) × World Bool) Exc MetSnapshotIngestionResult)
      (result : Bool → MetSnapshotIngestionResult),
    ((machineSystem Bool).prod (storeSystem Server.strict)).Reachable
      ⟨(fun _ => ⟨none, none⟩, World.initial fun _ => none),
        fun b => sampleService.run (sampleInputs (sampleRun b) b)⟩ c ∧
    (∀ b, c.procs b = .ret (result b)) ∧
    Totals (result true).outcomeCounts (sampleScan true).rows ∧
    ManifestReports sampleService (SecuredBytes true) (result true) c.shared.2 ∧
    ContractOutcome.members.map (result true).outcomeCounts = [1, 1, 1, 1] ∧
    ContractOutcome.members.map (result false).outcomeCounts = [0, 2, 1, 1] ∧
    (result true).outcomeCounts .rejected = (result false).outcomeCounts .rejected := by
  obtain ⟨c, result, hr, hret⟩ := sample_runs
  have hkeeps := minio_keeps Server.strict true
  have hkeeps' := minio_keeps Server.strict false
  obtain ⟨htotals, hmanifest, -, hrejected, -⟩ := run_totals hkeeps hkeeps' hr hr rfl rfl (hret true).1
    (hret false).1 (sample_preflight _ true) (sample_preflight _ false) sampleScan_sameRows
  exact ⟨c, result, hr, fun b => (hret b).1, htotals, hmanifest,
    (sample_counts (agreement_of_returned hkeeps hr rfl (hret true).1)).2,
    (sample_counts (agreement_of_returned hkeeps' hr rfl (hret false).1)).2, hrejected⟩

end EvidenceCartographer.Sources.Met
