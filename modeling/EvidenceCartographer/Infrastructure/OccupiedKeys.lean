import EvidenceCartographer.Infrastructure.BundleRuns

/-! A `store_bundle` call that meets an object at one of its keys.

    The call looks at its three keys before it sends anything, so an occupied key always stops it, and
    always before its first PUT. Which error it stops with depends on the object met:
    `decodeMetadata` parses the declared size that the object carries, and what it raises there comes
    out as a failed inspection. -/

namespace EvidenceCartographer.Infrastructure

open Python Domain Application Concurrency MinioConditionalObjectClient

variable {ι : Type} {call : BundleCall} {i : ι} {w w' : World ι}

theorem Refused.rely {srv : Server} {keys : List String} {e : Exc} (hr : Rely i w w')
    (h : Refused srv i call keys w e) : Refused srv i call keys w' e := by
  cases h with
  | occupied key o metadata hk ho hl hd =>
    exact .occupied key o metadata hk (hr.objects _ _ ho) (hr.lastAnswer.trans hl) hd
  | undecoded key o e hk ho hl hd =>
    exact .undecoded key o e hk (hr.objects _ _ ho) (hr.lastAnswer.trans hl) hd
  | failed key e hk hf => exact .failed key e hk hf

theorem Refused.not_isOSError {srv : Server} {keys : List String} {e : Exc}
    (h : Refused srv i call keys w e) : e.isOSError = false := by
  cases h <;> rfl

/-- A call whose artifact is staged: what it does first is to look at its keys. -/
structure BundleCall.Staged (call : BundleCall) (keys : BronzeObjectKeys) : Prop where
  isFile : call.staging.file.isFile = true
  keys_eq : call.keys = .ok keys
  spool : call.staging.artifactSpool.create = none
  snapshot : ∃ snapshot, call.snapshot keys = .ok snapshot

section Client

variable [DecidableEq ι] {srv : Server} {keys : BronzeObjectKeys}

/-- The first block from a state where one of the keys is occupied: it raises without a PUT, and what
    is staged is refused. -/
theorem safe_storeArtifact_occupied (hw : w.puts.size i = 0)
    (hocc : ∃ key ∈ keys.toList, w.objects (call.objectKey key) ≠ none) :
    (storeSystem srv).Safe i (fun w' => w'.puts.size i = 0)
      (call.store.storeArtifact call.staging call.artifact keys ⟨call.store.uri keys.artifact,
        call.store.uri keys.evidenceManifest, call.store.uri keys.completionManifest⟩)
      (fun r w' => w'.puts.size i = 0 ∧ ∃ e, r = .error e ∧
        (call.Staged keys → Refused srv i call keys.toList w' e)) w := by
  have hJ : KeptQuietly i fun w' => w'.puts.size i = 0 := fun _ _ _ hsize hw => hsize.trans hw
  refine MinioBronzeArtifactStore.safe_storeArtifact_of (R := fun e w' => w'.puts.size i = 0 ∧
    (call.Staged keys → Refused srv i call keys.toList w' e)) ?_ (fun _ hspool => ⟨hw, ?_⟩)
    (fun exc hsnap => ⟨hw, ?_⟩) fun snapshot _ => ?_
  · -- the handler passes a refusal on
    rintro e w' ⟨hw', hrefused⟩
    refine ⟨fun hos => ⟨hw', _, rfl, fun hstaged => ?_⟩, fun _ => ⟨hw', e, rfl, hrefused⟩⟩
    rw [(hrefused hstaged).not_isOSError] at hos; cases hos
  · intro hstaged
    rw [hstaged.spool] at hspool; cases hspool
  · intro hstaged
    obtain ⟨snapshot, hsnapshot⟩ := hstaged.snapshot
    rw [show call.snapshot keys = .error exc from hsnap] at hsnapshot; cases hsnapshot
  · refine System.Safe.mono (safe_assertAbsent hJ keys.toList hw) ?_
    rintro r w₁ ⟨hw₁, -, hfree, hrefused⟩
    refine ⟨fun e he => ⟨hw₁, fun _ => hrefused e he⟩, fun hok => ?_⟩
    obtain ⟨key, hk, ho⟩ := hocc
    exact absurd (hfree hok key hk) ho

/-- A whole call from such a state. -/
theorem safe_storeBundle_occupied (hkeys : call.keys = .ok keys) (hw : w.puts.size i = 0)
    (hocc : ∃ key ∈ keys.toList, w.objects (call.objectKey key) ≠ none) :
    (storeSystem srv).Safe i (fun w' => w'.puts.size i = 0) call.run
      (fun r w' => w'.puts.size i = 0 ∧ ∃ e, r = .error e ∧
        (call.Staged keys → Refused srv i call keys.toList w' e)) w := by
  have hbuild : buildBronzeObjectKeys call.artifact call.store.bronzePrefix = .ok keys := hkeys
  unfold BundleCall.run MinioBronzeArtifactStore.storeBundle
  split
  swap
  · rename_i hfile
    exact ⟨hw, _, rfl, fun hstaged => absurd hstaged.isFile hfile⟩
  rw [hbuild, call.store.targetFor_eq hkeys]
  refine .bind (System.safe_ofExcept.mpr (.bind (System.safe_ofExcept.mpr (.bind ?_))))
  refine (safe_storeArtifact_occupied hw hocc).mono ?_
  rintro _ w' ⟨hw', e, rfl, hrefused⟩
  exact ⟨hw', e, rfl, hrefused⟩

variable {w₀ : World ι} {procs : ι → Program httpSignature Exc BronzeBundleReceipt}
  {c : Config ι httpSignature (World ι) Exc BronzeBundleReceipt}

/-- What `_exists` says about an object. -/
def inspection (call : BundleCall) (key : String) (stat : ObjectStat) : Exc :=
  match decodeMetadata stat with
  | .ok _ => .objectAlreadyExistsError (call.store.uri key)
  | .error _ => .objectStoreError ("could not inspect " ++ call.store.uri key)

/-- A staged call whose artifact key is occupied can go on to the object it meets there. -/
theorem runs_storeBundle_occupied (srv : Server) (i : ι) (hstaged : call.Staged keys) {o : ObjectRecord ι}
    (ho : w.objects (call.objectKey keys.artifact) = some o) :
    ∃ w', (storeSystem srv).Runs i call.run w (.error (inspection call keys.artifact o.stat)) w' ∧
      w.SameStore w' := by
  obtain ⟨w', hstat, hsame⟩ := runs_stat_found srv i ho
  obtain ⟨snapshot, hsnapshot⟩ := hstaged.snapshot
  have hsnap : snapshotArtifact call.store.ceiling call.artifact (call.store.uri keys.artifact)
    call.staging = .ok snapshot := hsnapshot
  have hkeys : buildBronzeObjectKeys call.artifact call.store.bronzePrefix = .ok keys :=
    hstaged.keys_eq
  have habsent : (storeSystem srv).Runs i (call.store.assertBundleAbsent keys) w
      (.error (inspection call keys.artifact o.stat)) w' := by
    have hdecode : (storeSystem srv).Runs i
        (MinioConditionalObjectClient.statObject call.bucketName keys.artifact) w
        (decodeMetadata o.stat) w' := .bind hstat (.ofExcept _ _)
    unfold inspection
    cases hd : decodeMetadata o.stat with
    | ok metadata =>
      rw [hd] at hdecode
      exact .bind (.bind (.attempt hdecode) (.ret true _)) (.raise _ _)
    | error e =>
      rw [hd] at hdecode
      refine .bind_error (.bind (.attempt hdecode) ?_)
      simp only [isMissing_of_decodeMetadata hd]
      exact .raise _ _
  have hos : (inspection call keys.artifact o.stat).isOSError = false := by
    unfold inspection
    split <;> rfl
  have hblock : (storeSystem srv).Runs i (call.store.storeArtifact call.staging call.artifact keys
      ⟨call.store.uri keys.artifact, call.store.uri keys.evidenceManifest,
        call.store.uri keys.completionManifest⟩) w
      (.error (inspection call keys.artifact o.stat)) w' := by
    refine .handle (?_ : (storeSystem srv).Runs i _ w
      (.error (inspection call keys.artifact o.stat)) w') ?_
    · rw [withSpool, hstaged.spool]
      dsimp only
      rw [hsnap]
      exact .bind (.ofExcept (.ok snapshot) _) (.bind_error habsent)
    · simp only [hos]
      exact .raise _ w'
  refine ⟨w', ?_, hsame⟩
  rw [BundleCall.run, MinioBronzeArtifactStore.storeBundle, if_pos hstaged.isFile, hkeys,
    call.store.targetFor_eq hstaged.keys_eq]
  exact .bind (.ofExcept (.ok keys) _) (.bind (.ofExcept (.ok _) _) (.bind_error hblock))

end Client

theorem sample_staged : (sampleBundle csv none).Staged (sampleKeys csv) :=
  ⟨rfl, sample_keys _ _, rfl, _, (samplePlan csv none).snapshot_eq⟩

/-- An object with these metadata at the artifact key of the sample call. -/
def sampleOccupied (metadata : List (String × String)) :
    ObjectKey → Option (Bytes × List (String × String)) := fun key =>
  if key = ("lake", (sampleKeys csv).artifact) then some ([66], metadata) else none

theorem sampleOccupied_artifact (metadata : List (String × String)) :
    (World.initial (sampleOccupied metadata) : World Unit).objects ("lake", (sampleKeys csv).artifact) =
      some ⟨[66], metadata, none⟩ := by
  simp [World.initial, sampleOccupied]

/-- The sample call alone, on a store with that object. -/
theorem sample_occupied (metadata : List (String × String)) :
    ∃ c : Config Unit httpSignature (World Unit) Exc BronzeBundleReceipt,
      (storeSystem Server.strict).Reachable ⟨World.initial (sampleOccupied metadata),
        fun _ => (sampleBundle csv none).run⟩ c ∧
      (c.procs ()).outcome = some (.error (inspection (sampleBundle csv none)
        (sampleKeys csv).artifact ⟨some 1, metadata⟩)) ∧ c.shared.puts.size () = 0 := by
  obtain ⟨w', hrun, -, hputs⟩ := runs_storeBundle_occupied Server.strict () sample_staged
    (sampleOccupied_artifact metadata)
  refine ⟨_, hrun.reachable rfl .refl, ?_, ?_⟩
  · dsimp only
    rw [Function.update_self]; rfl
  · dsimp only
    rw [hputs]; rfl

end EvidenceCartographer.Infrastructure
