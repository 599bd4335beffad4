import EvidenceCartographer.Orchestration.Met
import EvidenceCartographer.Sources.Met.Header

/-! What the artifacts of concurrent Met runs begin with.

    A run looks at the first record of its file before it stores anything. So each artifact that is
    published begins with columns of the contract, in whatever way they are written, and the marker
    beside it says which of them the contract does not know. -/

namespace EvidenceCartographer.Orchestration

open Python Python.Csv Domain Application Infrastructure Concurrency Sources.Met

/-- A file with these bytes, opened as text: all of it is read, or it fails after a beginning that could
    be decoded. -/
inductive OpenedFrom (data : Bytes) : HeaderFile → Prop where
  | whole {text} : decodeUtf8Sig data = some text → OpenedFrom data ⟨text, none⟩
  | failing {text} (size : Nat) (exc) : decodeUtf8Sig (data.take size) = some text →
      OpenedFrom data ⟨text, some exc⟩

/-- The bytes begin with this record: their text does, or any text with the beginning that could be
    decoded. -/
inductive BeginsWith (data : Bytes) (header : List (List Char)) : Prop where
  | whole {text} : decodeUtf8Sig data = some text → FirstRecord text header → BeginsWith data header
  | failing {text} (size : Nat) : decodeUtf8Sig (data.take size) = some text →
      (∀ more, FirstRecord (text ++ more) header) → BeginsWith data header

/-- What was read from a file is what its bytes begin with. -/
theorem beginsWith_of_read {data : Bytes} {file : HeaderFile} {row : List String}
    (hopened : OpenedFrom data file) (hread : readHeader file = .row row) :
    ∃ header, BeginsWith data header ∧ Reader.Fits header ∧ row = header.map String.ofList := by
  cases hopened with
  | whole htext =>
    obtain ⟨header, hfirst, hfits, hrow⟩ := readHeader_row_iff.mp hread
    exact ⟨header, .whole htext hfirst, hfits, hrow⟩
  | failing size exc htext =>
    have hany (more : List Char) := readHeader_row_iff.mp (readHeader_failed hread more)
    obtain ⟨header, -, hfits, hrow⟩ := hany []
    refine ⟨header, .failing size htext fun more => ?_, hfits, hrow⟩
    -- whatever follows, it is the same record
    obtain ⟨header', hfirst, -, hrow'⟩ := hany more
    have hinjective : Function.Injective String.ofList := fun _ _ h => String.ofList_injective h
    obtain rfl := List.map_injective_iff.mpr hinjective (hrow.symm.trans hrow')
    exact hfirst

/-- The messages of a run's call are those of its header. -/
theorem CallFor.inspected {service : MetSnapshotIngestionService httpSignature} {inputs : RunInputs}
    {downloaded : DownloadedMetSnapshot} {file : LocalFile} {call : BundleCall}
    (h : CallFor service inputs downloaded file call) :
    ∃ preflight, inspect inputs.header = .ok preflight ∧
      call.contractMessages = preflight.contractMessages := by
  cases h with
  | mk hpreflight => exact ⟨_, hpreflight, rfl⟩

section Runs

variable {ι : Type} [DecidableEq ι] {service : ι → MetSnapshotIngestionService httpSignature}
  {inputs : ι → RunInputs} {srv : Server} {dirs : ι → MetDirectory}
  {objects : ObjectKey → Option (Bytes × List (String × String))}
  {c : System.ProductConfig ι machineSignature httpSignature (ι → MetDirectory) (World ι) Exc
    MetSnapshotIngestionResult}

/-- An artifact that concurrent runs have published, and whose run was given its header, begins with a
    record of columns that the contract accepts; the manifest that a reader restores with it has a
    message for those that the contract does not know, and no other. -/
theorem metRuns_contract
    (hr : ((machineSystem ι).prod (storeSystem srv)).traced.Reachable
      ⟨((dirs, World.initial objects), Log.empty), fun i => (service i).run (inputs i)⟩ c)
    (hstore : ∀ i, OverMinio (service i))
    (hsucc : srv.SuccessOnlyToCreator) (hforeign : srv.HonestWriters)
    (hinit : ∀ key data metadata, objects key = some (data, metadata) → HonestTag data metadata) :
    ∃ call : ι → BundleCall, Accounts srv objects service inputs call c ∧
      ∀ name bundle, c.shared.1.2.published call name = some bundle →
      ∃ m : BronzeCompletionManifest,
        c.shared.1.2.restore name = some (m.modelDump.canonical, bundle.artifact, bundle.evidence) ∧
        ∀ file, OpenedFrom bundle.artifact file →
          (inputs bundle.publisher).header = readHeader file →
          ∃ header, BeginsWith bundle.artifact header ∧ Reader.Fits header ∧
            readHeader file = .row (header.map String.ofList) ∧ Accepted (header.map String.ofList) ∧
            m.contractMessages = unexpectedMessages (header.map String.ofList) := by
  obtain ⟨call, seen, hseen, hreached⟩ := runs_seen hr hstore
  refine ⟨call, hseen.accounts hreached, fun name bundle hpublished => ?_⟩
  obtain ⟨plan, -, -, hrestore, -⟩ := restore_published hreached hsucc hpublished
    (honestIn_of_writers hreached hforeign hinit _)
  refine ⟨plan.completion, hrestore, fun file hopened hheader => ?_⟩
  obtain ⟨_, _, hcall⟩ := hseen.callFor plan.keys_eq
  obtain ⟨preflight, hpreflight, hmessages⟩ := hcall.inspected
  rw [hheader] at hpreflight
  obtain ⟨hread, -⟩ := inspect_ok hpreflight
  obtain ⟨header, hbegins, hfits, hcolumns⟩ := beginsWith_of_read hopened hread
  rw [hread, hcolumns] at hpreflight
  obtain ⟨haccepted, hresult⟩ := inspect_row_iff.mp hpreflight
  refine ⟨header, hbegins, hfits, hcolumns ▸ hread, haccepted, ?_⟩
  have hcompletion : plan.completion.contractMessages = preflight.contractMessages := hmessages
  rw [hcompletion, hresult]

end Runs

/-- Each of the two sample runs has published the file whose header it was given: it begins with columns
    of the contract and one more, and the manifest says so. -/
theorem metRuns_contract_sample : ∃ (c : System.ProductConfig Bool machineSignature httpSignature
      (Bool → MetDirectory) (World Bool) Exc MetSnapshotIngestionResult) (call : Bool → BundleCall),
    ((machineSystem Bool).prod (storeSystem Server.strict)).traced.Reachable
      ⟨((fun _ => ⟨none, none⟩, World.initial fun _ => none), Log.empty),
        fun b => sampleService.run (sampleInputs (sampleRun b) b)⟩ c ∧
    Accounts Server.strict (fun _ => none) (fun _ => sampleService)
      (fun b => sampleInputs (sampleRun b) b) call c ∧
    ∀ b, ∃ (name : ObjectKey) (bundle : PublishedBundle Bool) (m : BronzeCompletionManifest)
      (header : List (List Char)),
      c.shared.1.2.published call name = some bundle ∧ bundle.publisher = b ∧
      bundle.artifact = sampleCsv b ∧
      c.shared.1.2.restore name = some (m.modelDump.canonical, bundle.artifact, bundle.evidence) ∧
      BeginsWith (sampleCsv b) header ∧ header.map String.ofList = sampleColumns ∧
      m.contractMessages =
        [⟨"unexpected_columns", "Met CSV added columns: Shelf", none⟩] := by
  obtain ⟨c, result, hr, hret⟩ := sample_runs
  obtain ⟨log, htraced⟩ := hr.traced Log.empty
  obtain ⟨call, haccounts, hcontract⟩ := metRuns_contract htraced (fun _ => rfl)
    Server.strict_successOnlyToCreator (fun _ _ _ h => h.elim) (by simp)
  refine ⟨_, call, htraced, haccounts, fun b => ?_⟩
  obtain ⟨-, hpublished⟩ := sample_published haccounts b (hret b).2.2
  obtain ⟨m, hrestore, hheader⟩ := hcontract _ _ hpublished
  obtain ⟨header, hbegins, -, hread, -, hmessages⟩ :=
    hheader ⟨sampleText b, none⟩ (.whole (sampleCsv_decoded b)) (sample_header b).symm
  have hcolumns : header.map String.ofList = sampleColumns :=
    HeaderRead.row.inj (hread.symm.trans (sample_header b))
  refine ⟨_, _, m, header, hpublished, rfl, rfl, hrestore, hbegins, hcolumns, ?_⟩
  rw [hmessages, hcolumns]
  decide +kernel

end EvidenceCartographer.Orchestration
