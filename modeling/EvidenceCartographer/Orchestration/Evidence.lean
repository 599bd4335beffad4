import EvidenceCartographer.Orchestration.Met
import EvidenceCartographer.Sources.Met.Rows

/-! The evidence of concurrent Met runs, read back line by line.

    A run that returned has created its objects itself, so what a reader restores from its marker are
    the bytes it wrote: one line for each row of the file it downloaded, in order, each decoding to the
    item of its row. Every line names the artifact beside it, by its URI and by the digest of its
    bytes. -/

namespace EvidenceCartographer.Orchestration

open Python Domain Application Infrastructure Concurrency Sources.Met

/-- One item for each row, in order, classified by the rows before it. -/
structure ItemsOf (fromisoformat : String → Bool) (context : MetEvidenceContext) (rows : List CsvRow)
    (items : List BronzeRecordEvidence) : Prop where
  length : items.length = rows.length
  classified : ∀ before row after, rows = before ++ row :: after → ∃ item,
    items[before.length]? = some item ∧ Classified fromisoformat context before row item

/-- An iteration that ended normally has read all rows. -/
theorem itemsOf_iterEvidence {fromisoformat : String → Bool} {context : MetEvidenceContext}
    {recordIds : Nat → UUID} {scan : CsvScan}
    (h : (iterEvidence fromisoformat context recordIds scan).ending = none) :
    ItemsOf fromisoformat context scan.rows
      (iterEvidence fromisoformat context recordIds scan).items := by
  obtain ⟨s, read, -, hreads, hitems, hall⟩ :=
    iterEvidence_keeps (reads_step fromisoformat context recordIds) .empty scan
  obtain rfl := hall h
  rw [hitems]
  exact ⟨hreads.length, hreads.classified⟩

section CallFor

variable {service : MetSnapshotIngestionService httpSignature} {inputs : RunInputs}

/-- The evidence of a run's call is that of its file, under the URI and the digest of its artifact. -/
theorem CallFor.itemsOf {downloaded : DownloadedMetSnapshot} {file : LocalFile} {call : BundleCall}
    (h : CallFor service inputs downloaded file call) (plan : BundlePlan call) :
    ∃ preflight context, inspect inputs.header = .ok preflight ∧
      ItemsOf service.fromisoformat context (service.scanOf inputs preflight).rows
        call.evidence.items ∧
      context.rawUri = plan.object.uri ∧ call.artifact.expectedSha256 = some context.rawChecksum := by
  obtain ⟨hending, -⟩ := spoolEvidence_ok plan.written_eq
  cases h with
  | @mk preflight artifact target observedAt hpreflight hartifact htarget _ =>
    refine ⟨preflight, service.contextOf inputs downloaded target observedAt, hpreflight,
      itemsOf_iterEvidence hending, ?_, ?_⟩
    · have hkeys : buildBronzeObjectKeys artifact service.bronzeStore.bronzePrefix = .ok plan.keys :=
        plan.keys_eq
      rw [service.bronzeStore.targetFor_eq hkeys] at htarget
      exact (congrArg BronzeBundleTarget.artifactUri (Except.ok.inj htarget)).symm
    · unfold MetSnapshotIngestionService.artifactOf at hartifact
      split at hartifact
      · cases hartifact
        rfl
      · cases hartifact

/-- The digest that a run reports is that of its artifact. -/
theorem ResultOf.sha256_eq {call : BundleCall} {result : MetSnapshotIngestionResult}
    {receipt : BronzeBundleReceipt} (h : ResultOf service inputs call result receipt) :
    call.artifact.expectedSha256 = some result.sha256 := by
  obtain ⟨downloaded, hartifact, hreports⟩ := h.downloaded
  rw [hreports.sha256]
  unfold MetSnapshotIngestionService.artifactOf at hartifact
  split at hartifact
  · rw [← Except.ok.inj hartifact]
  · cases hartifact

end CallFor

section Runs

variable {ι : Type} [DecidableEq ι] {service : ι → MetSnapshotIngestionService httpSignature}
  {inputs : ι → RunInputs} {srv : Server} {dirs : ι → MetDirectory}
  {objects : ObjectKey → Option (Bytes × List (String × String))}
  {c : Config ι (machineSignature.sum httpSignature) ((ι → MetDirectory) × World ι) Exc
    MetSnapshotIngestionResult}

/-- The evidence that a reader restores from the marker of a run that returned has one line for each
    row of its file, each decoding to the item of its row; the lines name the artifact that is restored
    with them. -/
theorem metRuns_evidence
    (hr : ((machineSystem ι).prod (storeSystem srv)).Reachable
      ⟨(dirs, World.initial objects), fun i => (service i).run (inputs i)⟩ c)
    (hstore : ∀ i, OverMinio (service i))
    (hids : ∀ i j, (inputs i).runId = (inputs j).runId → i = j)
    (hsucc : srv.SuccessOnlyToCreator) (hother : srv.NoOtherWriter) :
    ∀ i result, c.procs i = .ret result → ∃ (key : String) (manifest : Json) (artifact evidence : Bytes)
      (preflight : MetCsvPreflightResult) (context : MetEvidenceContext)
      (items : List BronzeRecordEvidence),
      result.receipt.completionManifestUri = (service i).bronzeStore.uri key ∧
      c.shared.2.restore ((service i).bronzeStore.bucketName, key) =
        some (manifest, artifact, evidence) ∧
      inspect (inputs i).header = .ok preflight ∧
      LinesOf (items.map (·.modelDump)) evidence ∧
      ItemsOf (service i).fromisoformat context ((service i).scanOf (inputs i) preflight).rows items ∧
      context.rawUri = result.receipt.artifact.uri ∧ context.rawChecksum = sha256 artifact := by
  obtain ⟨log, htraced⟩ := hr.traced Log.empty
  obtain ⟨call, seen, hseen, hreached⟩ := runs_seen htraced hstore
  intro i result hret
  obtain ⟨plan, o, o', hreturned, hof, hrestore, hobject, hobject', -⟩ :=
    restored_of_returned hseen hreached hids hsucc hother hret
  obtain ⟨-, hsha⟩ := hseen.downloaded htraced hstore hreached hsucc hother hret plan hobject
  obtain ⟨_, _, hcall⟩ := hseen.callFor plan.keys_eq
  obtain ⟨preflight, context, hpreflight, hitems, huri, hchecksum⟩ := hcall.itemsOf plan
  obtain ⟨hbucket, -⟩ := hcall.fields
  have hevidence := evidence_of_returned hreached hother (hseen.ownRun hids plan.keys_eq) hreturned
    plan hobject'
  refine ⟨plan.keys.completionManifest, plan.completion.modelDump.canonical, o.data, o'.data, preflight,
    context, (call i).evidence.items, ?_, ?_, hpreflight, ?_, hitems, ?_, ?_⟩
  · rw [hof.receipt]
    show objectUri (call i).bucketName _ = objectUri _ _
    rw [hbucket]
  · rw [← hbucket]
    exact hrestore
  · rw [hevidence]
    exact linesOf_evidence _
  · rw [huri, hof.receipt]
    rfl
  · rw [hof.sha256_eq] at hchecksum
    rw [hsha, Option.some.inj hchecksum]

end Runs

/-- The evidence of each of the two sample runs has four lines, and the one for the row that comes later
    says that its Object ID repeats. -/
theorem metRuns_evidence_sample : ∃ (c : Config Bool (machineSignature.sum httpSignature)
      ((Bool → MetDirectory) × World Bool) Exc MetSnapshotIngestionResult)
      (result : Bool → MetSnapshotIngestionResult),
    ((machineSystem Bool).prod (storeSystem Server.strict)).Reachable
      ⟨(fun _ => ⟨none, none⟩, World.initial fun _ => none),
        fun b => sampleService.run (sampleInputs (sampleRun b) b)⟩ c ∧
    ∀ b, c.procs b = .ret (result b) ∧ ∃ (key : String) (manifest : Json) (artifact evidence : Bytes)
      (items : List BronzeRecordEvidence) (item : BronzeRecordEvidence),
      (result b).receipt.completionManifestUri = sampleService.bronzeStore.uri key ∧
      c.shared.2.restore ("lake", key) = some (manifest, artifact, evidence) ∧
      LinesOf (items.map (·.modelDump)) evidence ∧ items.length = 4 ∧
      items[if b then 2 else 3]? = some item ∧ item.result = duplicateResult 7 := by
  obtain ⟨c, result, hr, hret⟩ := sample_runs
  have hevidence := metRuns_evidence hr (fun _ => rfl) sampleRun_injective
    Server.strict_successOnlyToCreator Server.strict_noOtherWriter
  refine ⟨c, result, hr, fun b => ⟨(hret b).1, ?_⟩⟩
  obtain ⟨key, manifest, artifact, evidence, preflight, context, items, huri, hrestore, -, hlines,
    hitems, -⟩ := hevidence b _ (hret b).1
  have hrows : (sampleService.scanOf (sampleInputs (sampleRun b) b) preflight).rows =
    (sampleScan b).rows := rfl
  rw [hrows] at hitems
  -- the other row with this Object ID
  have hrepeats : ∃ before row after, (sampleScan b).rows = before ++ row :: after ∧
      before.length = (if b then 2 else 3) ∧ row.objectId = some 7 ∧
      ∃ earlier ∈ before, earlier.objectId = some 7 := by
    cases b with
    | true =>
      exact ⟨[⟨some 2, samplePayload "7" "A sword"⟩, ⟨some 3, samplePayload "8" ""⟩], _, _, rfl, rfl,
        by decide +kernel, _, List.mem_cons_self, by decide +kernel⟩
    | false =>
      exact ⟨[⟨some 2, samplePayload "" "A sword"⟩, ⟨some 3, samplePayload " 007 " ""⟩,
        ⟨some 4, samplePayload "8" ""⟩], _, _, rfl, rfl, by decide +kernel, _,
        List.mem_cons_of_mem _ List.mem_cons_self, by decide +kernel⟩
  obtain ⟨before, row, after, hsplit, hlength, hseven, hearlier⟩ := hrepeats
  obtain ⟨item, hitem, hof⟩ := hitems.classified before row after hsplit
  have hfour : (sampleScan b).rows.length = 4 := by cases b <;> rfl
  exact ⟨key, manifest, artifact, evidence, items, item, huri, hrestore, hlines,
    hitems.length.trans hfour, hlength ▸ hitem, hof.duplicate 7 hseven hearlier⟩

end EvidenceCartographer.Orchestration
