import EvidenceCartographer.Infrastructure.AbandonedPrefix
import EvidenceCartographer.Infrastructure.KeySegments
import EvidenceCartographer.Sources.Met.Service

/-! A run whose rows cannot be parsed.

    The reader raises its `MetCsvParseError` while the store takes items from it, inside the `try`
    block of `_write_evidence`, and the last handler there makes a `ManifestSerializationError` of
    whatever is not the store's own. So the type does not survive, at any row: once its artifact is
    stored the run raises a storage error. It writes no evidence manifest and no completion marker. -/

namespace EvidenceCartographer.Sources.Met

open Python Domain Application Infrastructure Concurrency

/-- The temporary directory can be removed. -/
def MachineOp.CleansUp (o : MachineOp) (r : machineSignature.Reply o) : Prop :=
  match o, r with
  | .removeTemporary, .error _ => False
  | _, _ => True

theorem MachineOp.Succeeds.cleansUp {o : MachineOp} {r : machineSignature.Reply o}
    (h : o.Succeeds r) : o.CleansUp r := by
  cases o with
  | removeTemporary =>
    rcases r with exc | ⟨⟨⟩⟩
    · exact h
    · trivial
  | _ => trivial

/-- The reader raises `MetCsvParseError` on the snapshot of the run, after any number of items. -/
def MetSnapshotIngestionService.ParseFails {S : Signature} (service : MetSnapshotIngestionService S)
    (inputs : RunInputs) : Prop :=
  ∀ preflight context, inspect inputs.header = .ok preflight →
    ∃ message, (service.evidenceOf inputs preflight context).ending = some (.metCsvParseError message)

section Run

variable {ι σ : Type} {S : Signature} {service : MetSnapshotIngestionService S}
  {inputs : RunInputs} {sys : System ι S σ} {i : ι} {holds : ObjectKey → Bytes → σ → Prop}
  {untouched : ObjectKey → σ → Prop}

/-- Such evidence is not spooled, whatever the store does. -/
theorem unspooled_of_parseFails (hfails : service.ParseFails inputs)
    {preflight : MetCsvPreflightResult} (hpreflight : inspect inputs.header = .ok preflight)
    (context : MetEvidenceContext) (ceiling : Nat) (artifact : BronzeArtifact) (uri : String)
    (faults : SpoolFaults) (written : EvidenceSpool) :
    spoolEvidence ceiling artifact uri faults (service.evidenceOf inputs preflight context) ≠
      .ok written := by
  intro hspooled
  obtain ⟨message, hending⟩ := hfails preflight context hpreflight
  rw [(spoolEvidence_ok hspooled).1] at hending
  cases hending

/-- What a run whose store raises is shown with: `P` holds until the store is called, `Q` of what is
    raised, and `J` all along. -/
structure StoreRaises (service : MetSnapshotIngestionService S) (inputs : RunInputs)
    (sys : System ι S σ) (i : ι) (P J : σ → Prop) (Q : Exc → σ → Prop) : Prop where
  before_rely : ∀ s s', sys.rely i s s' → P s → P s'
  inv_rely : ∀ s s', sys.rely i s s' → J s → J s'
  raised_rely : ∀ e s s', sys.rely i s s' → Q e s → Q e s'
  before_inv : ∀ s, P s → J s
  raised_inv : ∀ e s, Q e s → J s
  early : ∀ e s, P s → Q e s
  store : ∀ s staging artifact keys preflight context, P s → inspect inputs.header = .ok preflight →
    buildBronzeObjectKeys artifact service.bronzeStore.bronzePrefix = .ok keys →
    sys.Safe i J (service.bronzeStore.storeBundle staging artifact
        (service.evidenceOf inputs preflight context) preflight.contractMessages)
      (fun r s' => ∃ e, r = .error e ∧ Q e s') s

/-- The rule for such a run. -/
theorem safe_run_raises {P J : σ → Prop} {Q : Exc → σ → Prop}
    (h : StoreRaises service inputs sys i P J Q) (x : (ι → MetDirectory) × σ) (hx : P x.2) :
    (((machineSystem ι).assuming MachineOp.CleansUp).prod sys).Safe i (fun x => J x.2)
      (service.run inputs) (fun r x' => ∃ e, r = .error e ∧ Q e x'.2) x := by
  have early : ∀ {α : Type} (p : Program machineSignature Exc α) (x : (ι → MetDirectory) × σ),
      P x.2 → (((machineSystem ι).assuming MachineOp.CleansUp).prod sys).Safe i (fun x => J x.2)
        p.inl (fun _ x' => P x'.2) x :=
    fun p x hx => (System.Safe.inl_keeps h.before_rely p hx).weaken fun x' => h.before_inv x'.2
  refine .bind ((early _ x hx).mono ?_)
  rintro (exc | temporary) x₁ hx₁
  · exact ⟨exc, rfl, h.early exc _ hx₁⟩
  have hrunIn : (((machineSystem ι).assuming MachineOp.CleansUp).prod sys).Safe i
      (fun x => J x.2) (service.runIn inputs temporary)
      (fun r x' => ∃ e, r = .error e ∧ Q e x'.2) x₁ := by
    refine .bind ((early _ x₁ hx₁).mono ?_)
    rintro (exc | downloaded) x₂ hx₂
    · exact ⟨exc, rfl, h.early exc _ hx₂⟩
    refine .bind (System.safe_ofExcept.mpr ?_)
    cases hpreflight : inspect inputs.header with
    | error exc => exact ⟨exc, rfl, h.early exc _ hx₂⟩
    | ok preflight =>
    refine .bind (System.safe_ofExcept.mpr ?_)
    cases service.artifactOf inputs downloaded with
    | error exc => exact ⟨exc, rfl, h.early exc _ hx₂⟩
    | ok artifact =>
    dsimp only
    -- named first: the rule would evaluate the keys
    generalize htarget : service.bronzeStore.targetFor artifact = targeted
    refine .bind (System.safe_ofExcept.mpr ?_)
    cases targeted with
    | error exc => exact ⟨exc, rfl, h.early exc _ hx₂⟩
    | ok target =>
    refine .bind (System.safe_ofExcept.mpr ?_)
    cases inputs.observedAt with
    | error exc => exact ⟨exc, rfl, h.early exc _ hx₂⟩
    | ok observedAt =>
    obtain ⟨keys, hkeys, -⟩ := service.bronzeStore.targetFor_ok htarget
    refine .bind ((early _ x₂ hx₂).mono ?_)
    rintro (exc | file) x₃ hx₃
    · exact ⟨exc, rfl, h.early exc _ hx₃⟩
    have hraises := h.store x₃.2 ⟨file, inputs.artifactSpool, inputs.evidenceSpool⟩ artifact keys
      preflight (service.contextOf inputs downloaded target observedAt) hx₃ hpreflight hkeys
    refine .bind ((System.Safe.inr hraises).mono ?_)
    rintro _ x₄ ⟨⟨e, rfl, hx₄⟩, -⟩
    exact ⟨e, rfl, hx₄⟩
  refine .ensuring (hrunIn.mono ?_)
  rintro _ x₂ ⟨e, rfl, hx₂⟩ x₃ hrely r x₄ ⟨hexec, heq⟩
  have hx₄ : Q e x₄.2 := by
    rw [heq]
    exact h.raised_rely e _ _ hrely.2 hx₂
  refine ⟨h.raised_inv e _ hx₄, ?_⟩
  rcases r with exc | ⟨⟨⟩⟩
  · exact hexec.2.elim
  · exact ⟨e, rfl, hx₄⟩

/-- A run whose reader fails is such a run. -/
theorem storeRaises_parseFails (hfails : service.ParseFails inputs) :
    StoreRaises service inputs sys i (fun _ => True) (fun _ => True) (fun _ _ => True) := by
  refine ⟨fun _ _ _ => id, fun _ _ _ => id, fun _ _ _ _ => id, fun _ => id, fun _ _ => id,
    fun _ _ => id, ?_⟩
  intro s staging artifact keys preflight context _ hpreflight hkeys
  obtain ⟨exc, heq⟩ := MinioBronzeArtifactStore.storeBundle_of_unspooled hkeys
    (unspooled_of_parseFails hfails hpreflight context _ _ _ _)
  rw [heq]
  refine .bind (System.safe_true.mono ?_)
  rintro (e | object) s' -
  · exact ⟨e, rfl, trivial⟩
  · exact ⟨_, rfl, trivial⟩

/-- What it raises is a storage error, or the key is still untouched. -/
theorem storeRaises_storageError (hkeeps : service.bronzeStore.client.Keeps sys i holds untouched)
    (hfails : service.ParseFails inputs) (key : ObjectKey) :
    StoreRaises service inputs sys i (untouched key) (fun _ => True)
      (fun e s => e.isStorageError = true ∨ untouched key s) := by
  have hstable := hkeeps.untouched_rely key
  refine ⟨hstable, fun _ _ _ => id, fun e s s' hrely h => h.imp_right (hstable s s' hrely),
    fun _ _ => trivial, fun _ _ _ => trivial, fun _ _ => .inr, ?_⟩
  intro s staging artifact keys preflight context hs hpreflight hkeys
  exact safe_storeBundle_unspooled_raises hkeeps hkeys
    (unspooled_of_parseFails hfails hpreflight context _ _ _ _) hs

/-- A key of another kind than the artifact's stays untouched. -/
theorem storeRaises_untouched (hkeeps : service.bronzeStore.client.Keeps sys i holds untouched)
    (hfails : service.ParseFails inputs) {artifact : BronzeArtifact} {keys : BronzeObjectKeys}
    {kind : KeyKind}
    (hkeys : buildBronzeObjectKeys artifact service.bronzeStore.bronzePrefix = .ok keys)
    (hkind : kind ≠ .artifact) :
    StoreRaises service inputs sys i (untouched (service.bronzeStore.bucketName, keys.get kind))
      (untouched (service.bronzeStore.bucketName, keys.get kind))
      (fun _ => untouched (service.bronzeStore.bucketName, keys.get kind)) := by
  have hstable := hkeeps.untouched_rely (service.bronzeStore.bucketName, keys.get kind)
  refine ⟨hstable, hstable, fun _ => hstable, fun _ => id, fun _ _ => id, fun _ _ => id, ?_⟩
  intro s staging artifact' keys' preflight context hs hpreflight hkeys'
  have hne : keys.get kind ≠ keys'.artifact := fun heq =>
    hkind (buildBronzeObjectKeys_kind hkeys hkeys' (heq : keys.get kind = keys'.get .artifact))
  exact safe_storeBundle_unspooled hkeeps hkeys'
    (unspooled_of_parseFails hfails hpreflight context _ _ _ _) hne hs

variable [DecidableEq ι] {dirs : ι → MetDirectory} {s₀ : σ}
  {procs : ι → Program (machineSignature.sum S) Exc MetSnapshotIngestionResult}
  {c : Config ι (machineSignature.sum S) ((ι → MetDirectory) × σ) Exc MetSnapshotIngestionResult}

/-- No run raises the `MetCsvParseError` of its reader. A run whose reader fails does not return; it
    raises a storage error, or has written nothing; its store raises a storage error as soon as the
    artifact is stored; and neither an evidence manifest nor a completion marker is written. -/
theorem run_masks_parseError (hkeeps : service.bronzeStore.client.Keeps sys i holds untouched)
    (hr : (((machineSystem ι).assuming MachineOp.CleansUp).prod sys).Reachable
      ⟨(dirs, s₀), procs⟩ c)
    (hrun : procs i = service.run inputs) (hfails : service.ParseFails inputs) :
    (∀ result, c.procs i ≠ .ret result) ∧
    (∀ exc, c.procs i = .raise exc → exc.isStorageError = true ∨
      ∀ key, untouched key s₀ → untouched key c.shared.2) ∧
    (∀ preflight staging artifact keys context, inspect inputs.header = .ok preflight →
      buildBronzeObjectKeys artifact service.bronzeStore.bronzePrefix = .ok keys →
      ∃ exc, exc.isStorageError = true ∧ service.bronzeStore.storeBundle staging artifact
        (service.evidenceOf inputs preflight context) preflight.contractMessages =
          (service.bronzeStore.storedArtifact staging artifact keys).bind fun _ => .raise exc) ∧
    ∀ artifact keys kind,
      buildBronzeObjectKeys artifact service.bronzeStore.bronzePrefix = .ok keys →
      kind ≠ .artifact → untouched (service.bronzeStore.bucketName, keys.get kind) s₀ →
      untouched (service.bronzeStore.bucketName, keys.get kind) c.shared.2 := by
  have guarded : ∀ {P J : σ → Prop} {Q : Exc → σ → Prop},
      StoreRaises service inputs sys i P J Q → P s₀ →
      (((machineSystem ι).assuming MachineOp.CleansUp).prod sys).Guarded i
        (fun x => J x.2) (fun r x => ∃ e, r = .error e ∧ Q e x.2) c :=
    fun h hs => hr.started hrun (fun _ _ hrely => h.inv_rely _ _ hrely.2) (h.before_inv _ hs)
      (safe_run_raises h (dirs, s₀) hs)
  refine ⟨fun result hret => ?_, fun exc hraise => ?_, ?_, ?_⟩
  · have ho : (c.procs i).outcome = some (.ok result) := by rw [hret]; rfl
    obtain ⟨_, ⟨e, he, -⟩, -⟩ := (guarded (storeRaises_parseFails hfails) trivial).done _ ho
    cases he
  · by_cases hstorage : exc.isStorageError = true
    · exact .inl hstorage
    refine .inr fun key hkey => ?_
    have ho : (c.procs i).outcome = some (.error exc) := by rw [hraise]; rfl
    obtain ⟨x, ⟨e, he, htouched⟩, hrely⟩ :=
      (guarded (storeRaises_storageError hkeeps hfails key) hkey).done _ ho
    cases he
    exact hkeeps.untouched_rely key _ _ hrely.2 (htouched.resolve_left hstorage)
  · intro preflight staging artifact keys context hpreflight hkeys
    obtain ⟨exc, heq⟩ := MinioBronzeArtifactStore.storeBundle_of_unspooled hkeys
      (unspooled_of_parseFails hfails hpreflight context _ _ _ _)
    exact ⟨_, MinioBronzeArtifactStore.evidenceError_isStorageError exc, heq⟩
  · intro artifact keys kind hkeys hkind hkey
    exact (guarded (storeRaises_untouched hkeeps hfails hkeys hkind) hkey).inv

end Run

/-- The sample run, whose file breaks off after its rows. -/
def truncatedInputs : RunInputs :=
  { sampleInputs sampleId true with
    scan := fun _ _ =>
      ⟨(sampleScan true).batches, some (.unreadable "unexpected end of file")⟩ }

/-- What its reader raises. -/
def truncatedError : Exc :=
  .metCsvParseError "could not parse Met CSV records: unexpected end of file"

/-- The store's call in that run. -/
def truncatedBundle : BundleCall :=
  { sampleMetBundle sampleId true with
    evidence := sampleService.evidenceOf truncatedInputs samplePreflight
      (sampleService.contextOf truncatedInputs (sampleSnapshot true)
        ⟨objectUri "lake" (sampleKeys csv).artifact,
          objectUri "lake" (sampleKeys csv).evidenceManifest,
          objectUri "lake" (sampleKeys csv).completionManifest⟩ sampleInstant) }

def truncatedPlan : ArtifactPlan truncatedBundle where
  keys := sampleKeys csv
  keys_eq := sampleMet_keys sampleId true
  snapshot := .ofBytes (sampleCsv true)
  snapshot_eq := (sampleMetPlan sampleId true).snapshot_eq

theorem truncated_items :
    truncatedBundle.evidence.items = (sampleMetBundle sampleId true).evidence.items :=
  (congrArg EvidenceIterable.items (sample_items _ _ true (some _))).trans
    (congrArg EvidenceIterable.items (sample_items _ _ true none)).symm

theorem truncated_ending (preflight : MetCsvPreflightResult) (context : MetEvidenceContext) :
    (sampleService.evidenceOf truncatedInputs preflight context).ending = some truncatedError :=
  congrArg EvidenceIterable.ending (sample_items _ _ true (some _))

theorem truncated_spooled :
    truncatedBundle.spooled truncatedPlan.keys = .error truncatedError := by
  have hcoherent : ∀ item ∈ truncatedBundle.evidence.items, Coherent truncatedBundle.artifact item := by
    rw [truncated_items]
    exact fun _ => evidenceOf_coherent (sample_artifact sampleId true)
  have hfit : (truncatedBundle.evidence.items.flatMap evidenceLine).length ≤ maxSinglePutSizeBytes := by
    rw [truncated_items]
    exact sampleMet_accepted sampleId true
  exact spoolEvidence_raised _ (truncated_ending _ _) hcoherent (fun _ => rfl) hfit

/-- What is left of the run when it has ended. -/
def truncatedProcs : Unit → Program (machineSignature.sum httpSignature) Exc
    MetSnapshotIngestionResult :=
  fun _ => .raise (.manifestSerializationError "could not serialize Bronze record evidence")

/-- The run of the truncated file, from an empty store, where nothing else fails. -/
theorem truncated_reachable {machine : System Unit machineSignature (Unit → MetDirectory)}
    (hmachine : CanWork machine ()) :
    ∃ (dirs : Unit → MetDirectory) (w : World Unit),
      (machine.prod (storeSystem Server.strict)).Reachable
        ⟨(fun _ => ⟨none, none⟩, World.initial fun _ => none), fun _ =>
          sampleService.run truncatedInputs⟩ ⟨(dirs, w), truncatedProcs⟩ ∧ w.puts.size () = 1 := by
  obtain ⟨w, hstore, hl⟩ := runs_storeBundle_abandons (i := ()) (w := World.initial fun _ => none)
    Server.strict_grants truncatedPlan rfl ⟨rfl, rfl, truncatedPlan.snapshot_eq, sampleCsv_fits true⟩
    rfl truncated_spooled fun _ _ => rfl
  have hfile : ReadsAs truncatedBundle.staging.file (some (sampleCsv true)) :=
    fun _ _ => congrArg some (sampleMet_read sampleId true).1.symm
  have hpreflight : inspect truncatedInputs.header = .ok samplePreflight :=
    sample_preflight sampleId true
  have hartifact : sampleService.artifactOf truncatedInputs (sampleSnapshot true) =
      .ok (sampleMetArtifact sampleId true) := sample_artifact sampleId true
  have hobserved : truncatedInputs.observedAt = .ok sampleInstant := rfl
  obtain ⟨p, hreach, hrest⟩ := reaches_run hmachine (storeSystem Server.strict) "/tmp/met"
    (fun _ => ⟨none, none⟩) (World.initial fun _ => none) (sample_downloaded true _) hpreflight
    hartifact (truncatedBundle.store.targetFor_eq truncatedPlan.keys_eq) hobserved hfile
  obtain ⟨r, herror, -, hrun⟩ := hrest _ _ _ w (Function.update_self ..) hstore
  obtain rfl := herror _ rfl
  let procs : Unit → Program (machineSignature.sum httpSignature) Exc MetSnapshotIngestionResult :=
    fun _ => sampleService.run truncatedInputs
  have hr := (hreach.runs hrun).reachable (rfl : procs () = _) .refl
  have hprocs : Function.update procs () (truncatedProcs ()) = truncatedProcs := by
    funext u
    exact Function.update_self ..
  have hended : (machine.prod (storeSystem Server.strict)).Reachable _
      ⟨_, Function.update procs () (truncatedProcs ())⟩ := hr
  rw [hprocs] at hended
  exact ⟨_, w, hended, hl.size⟩

/-- After four items the reader raises `MetCsvParseError`, and the run a storage error. -/
theorem truncated_run_raises_storageError :
    ∃ c : Config Unit (machineSignature.sum httpSignature) ((Unit → MetDirectory) × World Unit) Exc
        MetSnapshotIngestionResult,
      (workingMachine.prod (storeSystem Server.strict)).Reachable
        ⟨(fun _ => ⟨none, none⟩, World.initial fun _ => none), fun _ =>
          sampleService.run truncatedInputs⟩ c ∧
      c.procs () =
        .raise (.manifestSerializationError "could not serialize Bronze record evidence") ∧
      truncatedBundle.evidence.items.length = 4 ∧
      truncatedBundle.evidence.ending = some truncatedError := by
  obtain ⟨dirs, w, hr, -⟩ := truncated_reachable (canWork_assuming (fun _ _ => id) ())
  refine ⟨_, hr, rfl, ?_, truncated_ending _ _⟩
  rw [truncated_items, sampleMet_length]

theorem run_masks_parseError_sample :
    ∃ (c : Config Unit (machineSignature.sum httpSignature) ((Unit → MetDirectory) × World Unit) Exc
        MetSnapshotIngestionResult) (exc : Exc),
      (((machineSystem Unit).assuming MachineOp.CleansUp).prod (storeSystem Server.strict)).Reachable
        ⟨(fun _ => ⟨none, none⟩, World.initial fun _ => none), fun _ =>
          sampleService.run truncatedInputs⟩ c ∧
      c.procs () = .raise exc ∧ exc.isStorageError = true ∧
      ∀ kind, kind ≠ .artifact →
        c.shared.2.AllSent () fun r => r.key ≠ ("lake", (sampleKeys csv).get kind) := by
  obtain ⟨dirs, w, hr, hsize⟩ :=
    truncated_reachable (canWork_assuming (fun _ _ h => h.cleansUp) ())
  have hunsent₀ : ∀ key : ObjectKey,
      (World.initial fun _ => none : World Unit).AllSent () fun r => r.key ≠ key :=
    fun _ _ _ => nofun
  obtain ⟨-, hraised, -, hunsent⟩ := run_masks_parseError (minio_keeps Server.strict ()) hr rfl
    fun preflight context _ => ⟨_, truncated_ending preflight context⟩
  refine ⟨_, _, hr, rfl, (hraised _ rfl).resolve_right fun hnone => ?_, fun kind hkind =>
    hunsent _ _ kind (sampleMet_keys sampleId true) hkind (hunsent₀ _)⟩
  -- something has been sent
  obtain ⟨p, hp⟩ := Log.entry_of_lt (l := w.puts) (i := ()) (n := 0) (by omega)
  exact hnone p.request.key (hunsent₀ _) 0 p hp rfl

end EvidenceCartographer.Sources.Met
