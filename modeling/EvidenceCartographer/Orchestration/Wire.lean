import EvidenceCartographer.Orchestration.Evidence
import EvidenceCartographer.Orchestration.Stages

/-! Concurrent Met runs on the wire, from what a server delivers to what a reader restores.

    The runs work on machines and over networks of which nothing is assumed: a file may be read back
    as something else than was written to it, and another process may have changed it. What holds the
    chain together are the digests: that of the download is the one the store checks the file against,
    and the one in its marker. -/

namespace EvidenceCartographer.Orchestration

open Python Domain Application Infrastructure Concurrency Sources.Met

section Run

variable {service : MetSnapshotIngestionService httpSignature} {urljoin : String → String → String}
  {inputs : RunInputs}

/-- What a run reports it has fetched, first of all. -/
theorem fetched_of_returned {events : FlowHistory} {result : MetSnapshotIngestionResult}
    (h : (service.runOverHttp urljoin inputs).Trace events (.ok result)) :
    ∃ temporary wire rest snapshot bytes,
      events = ownEvent .makeTemporary (.ok temporary) :: (wire.map Program.inlEvent ++ rest) ∧
      MetSnapshotDownloader.Fetched service.downloader urljoin temporary wire snapshot bytes ∧
      result.Reports snapshot := by
  obtain ⟨made, after, rfl, hrun⟩ := h
  rcases made with exc | temporary
  · cases hrun.2
  obtain ⟨inside, cleanup, ended, removed, rfl, hinside, -, hended⟩ := Program.trace_ensuring.mp hrun
  have hok : ended = .ok result := by
    cases removed <;> first | exact hended.symm | cases hended
  subst hok
  obtain ⟨before, rest, snapshot, rfl, hdownload, hrest⟩ := Program.trace_bind_ok.mp hinside
  obtain ⟨wire, rfl, hwire⟩ := Program.trace_inl.mp hdownload
  obtain ⟨sent, after, answer, rfl, hsent, hanswer⟩ := Program.trace_bind_ok.mp hwire
  rcases answer with downloaded | answer
  swap
  · cases hanswer.2
  obtain ⟨rfl, hsnapshot⟩ := hanswer
  obtain rfl := Except.ok.inj hsnapshot
  obtain ⟨bytes, hfetched⟩ := MetSnapshotDownloader.fetched_of_run hsent
  have hevents : (sent ++ []).map Program.inlEvent ++ rest ++ cleanup =
      sent.map Program.inlEvent ++ (rest ++ cleanup) := by
    rw [List.append_nil, List.append_assoc]
  refine ⟨temporary, sent, rest ++ cleanup, snapshot, bytes,
    congrArg (ownEvent .makeTemporary (.ok temporary) :: ·) hevents, hfetched, ?_⟩
  -- the rest of the run copies what it reports
  obtain ⟨_, _, preflight, rfl, -, hrest⟩ := Program.trace_bind_ok.mp hrest
  obtain ⟨_, _, artifact, rfl, -, hrest⟩ := Program.trace_bind_ok.mp hrest
  obtain ⟨_, _, target, rfl, -, hrest⟩ := Program.trace_bind_ok.mp hrest
  obtain ⟨_, _, observedAt, rfl, -, hrest⟩ := Program.trace_bind_ok.mp hrest
  obtain ⟨_, _, file, rfl, -, hrest⟩ := Program.trace_bind_ok.mp hrest
  obtain ⟨_, _, receipt, rfl, -, hrest⟩ := Program.trace_bind_ok.mp hrest
  obtain ⟨-, hresult⟩ := hrest
  obtain rfl := Except.ok.inj hresult
  exact ⟨rfl, rfl, rfl, rfl, rfl, rfl⟩

end Run

section Runs

variable {ι τ : Type} [DecidableEq ι] {service : ι → MetSnapshotIngestionService httpSignature}
  {inputs : ι → RunInputs} {urljoin : String → String → String} {srv : Server}
  {sys : System ι wireSignature τ} {t : τ}
  {objects : ObjectKey → Option (Bytes × List (String × String))}
  {c : System.ProductConfig ι wireSignature httpSignature τ (World ι) Exc MetSnapshotIngestionResult}

/-- Whatever the machines and the networks do, a run that returned has sent on what it fetched: its
    artifact, restored from its marker, has the digest of the bytes that its last response delivered,
    and so has the artifact that each line of its evidence names. -/
theorem wireRuns_deliver
    (hr : (sys.prod (storeSystem srv)).traced.Reachable
      ⟨((t, World.initial objects), Log.empty), fun i => (service i).runOverHttp urljoin (inputs i)⟩ c)
    (hstore : ∀ i, OverMinio (service i))
    (hids : ∀ i j, (inputs i).runId = (inputs j).runId → i = j)
    (hsucc : srv.SuccessOnlyToCreator) (hother : srv.NoOtherWriter) :
    ∀ i result, c.procs i = .ret result → ∃ (key : String) (manifest : Json) (artifact evidence : Bytes)
      (temporary : String) (wire : WireHistory) (rest : FlowHistory)
      (snapshot : DownloadedMetSnapshot) (bytes : Bytes) (preflight : MetCsvPreflightResult)
      (context : MetEvidenceContext) (items : List BronzeRecordEvidence),
      result.receipt.completionManifestUri = (service i).bronzeStore.uri key ∧
      c.shared.1.2.restore ((service i).bronzeStore.bucketName, key) =
        some (manifest, artifact, evidence) ∧
      Describes result.receipt.artifact artifact ∧ Describes result.receipt.evidenceManifest evidence ∧
      c.shared.2.of i =
        ownEvent .makeTemporary (.ok temporary) :: (wire.map Program.inlEvent ++ rest) ∧
      MetSnapshotDownloader.Fetched (service i).downloader urljoin temporary wire snapshot bytes ∧
      result.Reports snapshot ∧ result.sizeBytes = bytes.length ∧ sha256 artifact = sha256 bytes ∧
      inspect (inputs i).header = .ok preflight ∧
      LinesOf (items.map (·.modelDump)) evidence ∧
      ItemsOf (service i).fromisoformat context ((service i).scanOf (inputs i) preflight).rows items ∧
      context.rawUri = result.receipt.artifact.uri ∧ context.rawChecksum = sha256 bytes := by
  obtain ⟨call, seen, hseen, hreached⟩ := seen_of_runs hr hstore
  intro i result hret
  obtain ⟨plan, o, o', hreturned, hof, hrestore, hobject, hobject', hevidence, hartifact⟩ :=
    restored_of_returned hseen hreached hids hsucc hother hret
  obtain ⟨_, _, hcall⟩ := hseen.callFor plan.keys_eq
  obtain ⟨events, hlog, htrace⟩ := hr.trace (i := i) (r := .ok result) (by rw [hret]; rfl)
  obtain ⟨temporary, wire, rest, snapshot, bytes, rfl, hfetched, hreports⟩ := fetched_of_returned htrace
  obtain ⟨hsize, hsha⟩ := hfetched.describes
  obtain ⟨preflight, context, hpreflight, hitems, huri, hchecksum⟩ := hcall.itemsOf plan
  -- the store has checked the file against the digest of the download
  have hfile : sha256 o.data = result.sha256 := by
    obtain ⟨hsnapshot, -, hexpected⟩ := snapshotArtifact_ok plan.snapshot_eq
    have hdigest : plan.object.sha256 = sha256 (chunksRead (call i).staging.file.reads) :=
      congrArg sha256 hsnapshot.digest
    rw [hartifact.2, hdigest]
    exact hexpected _ hof.sha256_eq
  have hlines := evidence_of_returned hreached hother (hseen.ownRun hids plan.keys_eq) hreturned plan
    hobject'
  have hbucket := hcall.fields.1
  refine ⟨plan.keys.completionManifest, plan.completion.modelDump.canonical, o.data, o'.data, temporary,
    wire, rest, snapshot, bytes, preflight, context, (call i).evidence.items, ?_, ?_, ?_, ?_, hlog,
    hfetched, hreports, ?_, ?_, hpreflight, ?_, hitems, ?_, ?_⟩
  · rw [hof.receipt]
    show objectUri (call i).bucketName _ = objectUri _ _
    rw [hbucket]
  · rw [← hbucket]
    exact hrestore
  · rw [hof.receipt]
    exact hartifact
  · rw [hof.receipt]
    exact hevidence
  · rw [hreports.sizeBytes, hsize]
  · rw [hfile, hreports.sha256, hsha]
  · rw [hlines]
    exact linesOf_evidence _
  · rw [huri, hof.receipt]
    rfl
  · rw [hof.sha256_eq] at hchecksum
    rw [← Option.some.inj hchecksum, hreports.sha256, hsha]

end Runs

section Sample

/-- Two sample runs, one after the other, on a machine and a network that answer as they ask. -/
theorem sample_onWire : ∃ (c : Config Bool (wireSignature.sum httpSignature) (Unit × World Bool) Exc
      MetSnapshotIngestionResult) (result : Bool → MetSnapshotIngestionResult),
    ((System.anything Bool wireSignature).prod (storeSystem Server.strict)).Reachable
      ⟨((), World.initial fun _ => none),
        fun b => sampleService.runOverHttp (· ++ ·) (sampleInputs (sampleRun b) b)⟩ c ∧
    ∀ b, c.procs b = .ret (result b) := by
  let machine := System.anything Bool wireSignature
  have hown {α : Type} {p : Program wireSignature Exc α} {events : WireHistory} {r : Except Exc α}
      (h : p.Trace events r) (b : Bool) (w : World Bool) :
      (machine.prod (storeSystem Server.strict)).Runs b p.inl ((), w) r ((), w) :=
    (System.runs_anything h b).inl w
  have hmake : (onMachine (.call .makeTemporary .ofExcept) : Program wireSignature Exc String).Trace
      [machineEvent ⟨.makeTemporary, .ok "/tmp/met"⟩] (.ok "/tmp/met") := .call ⟨rfl, rfl⟩
  have hopen (b : Bool) :
      (onMachine (.call .openTarget .ret) : Program wireSignature Exc LocalFile).Trace
      [machineEvent ⟨.openTarget, (sampleMetBundle (sampleRun b) b).staging.file⟩]
      (.ok (sampleMetBundle (sampleRun b) b).staging.file) := .call ⟨rfl, rfl⟩
  have hremove : (onMachine (.call .removeTemporary .ofExcept) : Program wireSignature Exc Unit).Trace
      [machineEvent ⟨.removeTemporary, .ok ()⟩] (.ok ()) := .call ⟨rfl, rfl⟩
  -- on free keys a run returns, and only its own keys are taken
  have hruns (b : Bool) (w : World Bool)
      (hfree : ∀ name ∈ (sampleKeysOf (sampleRun b) csv).toList, w.objects ("lake", name) = none) :
      ∃ result w', (machine.prod (storeSystem Server.strict)).Runs b
        (sampleService.runOverHttp (· ++ ·) (sampleInputs (sampleRun b) b)) ((), w) (.ok result)
        ((), w') ∧ w.BundleLanded b (sampleMetPlan (sampleRun b) b) (.ok (plainResponse 200)) w' := by
    obtain ⟨w', hstored, hlanded⟩ := sampleRaw_stored (sampleRun b) b b hfree
    exact ⟨_, w', .bind (hown hmake b _) (.ensuring (.bind (hown (sampleRaw_download b) b _)
      (.bind_ok (sample_preflight (sampleRun b) b) (.bind_ok (sampleRaw_artifact (sampleRun b) b)
        (.bind_ok (sampleRaw_target (sampleRun b) b) (.bind_ok rfl (.bind (hown (hopen b) b _)
          (.bind (hstored.inr _) (.ret _ _))))))))
      (hown hremove b _)), hlanded⟩
  obtain ⟨first, w₁, hrun₁, hlanded⟩ := hruns true (World.initial fun _ => none) fun _ _ => rfl
  obtain ⟨second, w₂, hrun₂, -⟩ := hruns false w₁ fun name hname =>
    hlanded.others _ fun name' hname' heq =>
      sampleParty_disjoint name' hname' name hname (congrArg Prod.snd heq).symm
  let procs (b : Bool) := sampleService.runOverHttp (· ++ ·) (sampleInputs (sampleRun b) b)
  have hwaits : (machine.prod (storeSystem Server.strict)).Reaches false (procs false)
    ((), World.initial fun _ => none) (procs false) ((), World.initial fun _ => none) := .refl _ _
  obtain ⟨procs', hr, hsecond, hfirst⟩ := hwaits.interleaved (by decide) hrun₁ hrun₂
  refine ⟨⟨((), w₂), procs'⟩, fun b => if b then first else second, hr, fun b => ?_⟩
  cases b with
  | true => exact hfirst
  | false => exact hsecond

/-- Both sample runs have sent on what they fetched: four lines each, about the bytes that their last
    response delivered. -/
theorem wireRuns_deliver_sample : ∃ (c : System.ProductConfig Bool wireSignature httpSignature Unit
      (World Bool) Exc MetSnapshotIngestionResult) (result : Bool → MetSnapshotIngestionResult),
    ((System.anything Bool wireSignature).prod (storeSystem Server.strict)).traced.Reachable
      ⟨(((), World.initial fun _ => none), Log.empty),
        fun b => sampleService.runOverHttp (· ++ ·) (sampleInputs (sampleRun b) b)⟩ c ∧
    ∀ b, c.procs b = .ret (result b) ∧ ∃ (key : String) (manifest : Json)
      (artifact evidence : Bytes) (temporary : String) (wire : WireHistory)
      (snapshot : DownloadedMetSnapshot) (bytes : Bytes) (items : List BronzeRecordEvidence),
      c.shared.1.2.restore ("lake", key) = some (manifest, artifact, evidence) ∧
      MetSnapshotDownloader.Fetched sampleDownloader (· ++ ·) temporary wire snapshot bytes ∧
      (result b).sizeBytes = bytes.length ∧ sha256 artifact = sha256 bytes ∧
      LinesOf (items.map (·.modelDump)) evidence ∧ items.length = 4 := by
  obtain ⟨c, result, hr, hret⟩ := sample_onWire
  obtain ⟨log, htraced⟩ := hr.traced .empty
  have hdeliver := wireRuns_deliver htraced (fun _ => rfl) sampleRun_injective
    Server.strict_successOnlyToCreator Server.strict_noOtherWriter
  refine ⟨_, result, htraced, fun b => ⟨hret b, ?_⟩⟩
  obtain ⟨key, manifest, artifact, evidence, temporary, wire, rest, snapshot, bytes, preflight, context,
    items, -, hrestore, -, -, -, hfetched, -, hsize, hsha, -, hlines, hitems, -⟩ :=
    hdeliver b _ (hret b)
  have hfour : (sampleScan b).rows.length = 4 := by cases b <;> rfl
  exact ⟨key, manifest, artifact, evidence, temporary, wire, snapshot, bytes, items, hrestore, hfetched,
    hsize, hsha, hlines, hitems.length.trans hfour⟩

end Sample

end EvidenceCartographer.Orchestration
