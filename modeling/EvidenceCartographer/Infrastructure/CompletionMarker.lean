import EvidenceCartographer.Infrastructure.BundleCollisions
import EvidenceCartographer.Infrastructure.EvidenceManifest
import EvidenceCartographer.Python.JsonFields

/-! Reading back the completion marker.

    A marker is one canonical JSON text. Its tree has the fields of the manifest under their own names,
    and what a value was dumped from can be told from the value: so the bytes of a marker are those of
    one manifest, and a reader who has nothing but the marker finds the rest of the bundle by it. -/

namespace EvidenceCartographer.Infrastructure

open Python Domain Application Concurrency

theorem dumpText_inj {text text' : Option String}
    (h : (dumpText text).canonical = (dumpText text').canonical) : text = text' := by
  rcases text with _ | text <;> rcases text' with _ | text'
  · rfl
  · simp [dumpText, Json.canonical] at h
  · simp [dumpText, Json.canonical] at h
  · simpa [dumpText, Json.canonical] using h

theorem message_inj {m m' : ValidationMessage}
    (h : m.modelDump.canonical = m'.modelDump.canonical) : m = m' := by
  have hvalues := Json.canonical_obj_inj h (by simp) (by simp)
  simp [Json.mapValues, Json.canonical] at hvalues
  obtain ⟨hrule, hmessage, hfield⟩ := hvalues
  obtain ⟨ruleId, message, field⟩ := m
  obtain ⟨ruleId', message', field'⟩ := m'
  simp only at hrule hmessage hfield
  rw [hrule, hmessage, dumpText_inj hfield]

theorem storedObject_inj {o o' : StoredObject}
    (h : o.modelDump.canonical = o'.modelDump.canonical) : o = o' := by
  have hvalues := Json.canonical_obj_inj h (by simp) (by simp)
  simp [Json.mapValues, Json.canonical] at hvalues
  obtain ⟨huri, hsize, hdigest⟩ := hvalues
  obtain ⟨uri, sizeBytes, digest⟩ := o
  obtain ⟨uri', sizeBytes', digest'⟩ := o'
  simp only at huri hsize hdigest
  rw [huri, hsize, Sha256Hex.ext' hdigest]

theorem counts_inj {counts counts' : OutcomeCounts}
    (h : (dumpCounts counts).canonical = (dumpCounts counts').canonical) : counts = counts' := by
  have hvalues := Json.canonical_obj_inj h (by simp) (by simp [ContractOutcome.members,
    ContractOutcome.value])
  simp [ContractOutcome.members, Json.mapValues, Json.canonical] at hvalues
  obtain ⟨haccepted, hwarnings, hquarantined, hrejected⟩ := hvalues
  funext outcome
  cases outcome with
  | accepted => exact haccepted
  | acceptedWithWarnings => exact hwarnings
  | quarantined => exact hquarantined
  | rejected => exact hrejected

theorem messages_inj {ms ms' : List ValidationMessage}
    (h : ms.map (fun m => m.modelDump.canonical) = ms'.map fun m => m.modelDump.canonical) :
    ms = ms' :=
  List.map_injective_iff.mpr (fun _ _ => message_inj) h

/-- Two manifests that say the same, the instant by its text. -/
structure SameManifest (m m' : BronzeCompletionManifest) : Prop where
  source : m.source = m'.source
  ingestionRunId : m.ingestionRunId = m'.ingestionRunId
  retrievedAt : m.retrievedAt.text = m'.retrievedAt.text
  sourceUrl : m.sourceUrl = m'.sourceUrl
  contractVersion : m.contractVersion = m'.contractVersion
  artifact : m.artifact = m'.artifact
  evidenceManifest : m.evidenceManifest = m'.evidenceManifest
  totalRecords : m.totalRecords = m'.totalRecords
  outcomeCounts : m.outcomeCounts = m'.outcomeCounts
  contractMessages : m.contractMessages = m'.contractMessages

/-- A manifest can be told from its tree. -/
theorem manifest_inj {m m' : BronzeCompletionManifest}
    (h : m.modelDump.canonical = m'.modelDump.canonical) : SameManifest m m' := by
  have hvalues := Json.canonical_obj_inj h (by simp) (by simp)
  simp [Json.mapValues, Json.canonical, UUID.dump, AwareDatetime.dump] at hvalues
  obtain ⟨hsource, hrun, hretrieved, hurl, hversion, hartifact, hevidence, htotal, hcounts,
    hmessages⟩ := hvalues
  exact ⟨SourceName.value_injective hsource, UUID.str_injective hrun, hretrieved, hurl, hversion,
    storedObject_inj hartifact, storedObject_inj hevidence, htotal, counts_inj hcounts,
    messages_inj hmessages⟩

theorem uniqueKeys_manifest (m : BronzeCompletionManifest) : m.modelDump.UniqueKeys := by
  have hmessages : ∀ message ∈ m.contractMessages, message.modelDump.UniqueKeys :=
    fun message _ => uniqueKeys_message message
  simpa [BronzeCompletionManifest.modelDump, StoredObject.modelDump, dumpCounts,
    ContractOutcome.members, ContractOutcome.value, Json.uniqueKeys_obj, Json.UniqueKeys, UUID.dump,
    AwareDatetime.dump] using hmessages

/-! ### The reader -/

/-- The key in a URI of the bucket. -/
def keyOf (bucketName uri : String) : String :=
  .ofList (uri.toList.drop (objectUri bucketName "").toList.length)

theorem keyOf_objectUri (bucketName key : String) :
    keyOf bucketName (objectUri bucketName key) = key := by
  have happend : (objectUri bucketName key).toList =
      (objectUri bucketName "").toList ++ key.toList := by
    simp [objectUri]
  rw [keyOf, happend, List.drop_left, String.ofList_toList]

variable {ι : Type}

/-- The bytes of the object that a field of the manifest names. -/
def World.linked (w : World ι) (bucketName name : String) (manifest : Json) : Option Bytes := do
  let uri ← ((manifest.get name).bind (·.get "uri")).bind Json.text
  let object ← w.objects (bucketName, keyOf bucketName uri)
  return object.data

/-- What a reader gets who starts from the bytes of a marker: its tree, the artifact and the
    evidence. -/
def World.restore (w : World ι) (marker : ObjectKey) : Option (Json × Bytes × Bytes) := do
  let object ← w.objects marker
  let manifest ← Json.loadsBytes object.data
  let artifact ← w.linked marker.1 "artifact" manifest
  let evidence ← w.linked marker.1 "evidence_manifest" manifest
  return (manifest, artifact, evidence)

theorem linked_eq {w : World ι} {bucketName name key : String} {fields : List (String × Json)}
    {o : StoredObject} {object : ObjectRecord ι} (hunique : (fields.map Prod.fst).Nodup)
    (hfield : fields.lookup name = some o.modelDump) (huri : o.uri = objectUri bucketName key)
    (hobject : w.objects (bucketName, key) = some object) :
    w.linked bucketName name (Json.obj fields).canonical = some object.data := by
  have hget : (o.modelDump.canonical.get "uri").bind Json.text = some o.uri := by
    rw [StoredObject.modelDump, Json.get_canonical (by simp)]
    rfl
  rw [World.linked, Json.get_canonical hunique, hfield]
  simp [hget, huri, keyOf_objectUri, hobject]

section Restored

variable [DecidableEq ι] {srv : Server} {call : ι → BundleCall}
  {objects : ObjectKey → Option (Bytes × List (String × String))}
  {c : Config ι httpSignature (World ι) Exc BronzeBundleReceipt} {name : ObjectKey}
  {bundle : PublishedBundle ι}

variable (hr : (storeSystem srv).Reachable ⟨World.initial objects, fun i => (call i).run⟩ c)
  (hsucc : srv.SuccessOnlyToCreator)

include hr hsucc

/-- A reader follows the marker of a published bundle to the objects under its two other keys. -/
theorem restore_published (h : c.shared.published call name = some bundle)
    (hhonest : (call bundle.publisher).HonestIn c.shared) :
    ∃ plan : BundlePlan (call bundle.publisher), name = plan.markerCreate.key ∧
      Json.loadsBytes bundle.marker = some plan.completion.modelDump.canonical ∧
      c.shared.restore name =
        some (plan.completion.modelDump.canonical, bundle.artifact, bundle.evidence) ∧
      (∃ o, c.shared.objects plan.create.key = some o ∧ o.data = bundle.artifact) ∧
      (∃ o, c.shared.objects plan.evidenceCreate.key = some o ∧ o.data = bundle.evidence) ∧
      Describes plan.object bundle.artifact ∧ Describes plan.evidenceObject bundle.evidence := by
  obtain ⟨publisher, bytes, lines, marker⟩ := bundle
  obtain ⟨n, keys, o, hkeys, rfl, ho, hc⟩ := World.creator_of_published h
  obtain ⟨artifact, evidence, hartifact, hevidence, hbundle, plan, hname, hmarker, hsize, hlines⟩ :=
    published_of_creator hr hsucc hkeys hhonest rfl ho hc
  rw [h] at hbundle
  cases hbundle
  obtain rfl := plan.keys_unique hkeys
  have hload : Json.loadsBytes o.data = some plan.completion.modelDump.canonical := by
    rw [show o.data = _ from hmarker]
    exact loadsBytes_canonicalJson (uniqueKeys_manifest _)
  refine ⟨plan, rfl, hload, ?_, ⟨artifact, hartifact, rfl⟩, ⟨evidence, hevidence, rfl⟩, hsize, hlines⟩
  have hlinked : c.shared.linked (call publisher).bucketName "artifact"
      plan.completion.modelDump.canonical = some artifact.data :=
    linked_eq (by simp) rfl rfl hartifact
  have hlinked' : c.shared.linked (call publisher).bucketName "evidence_manifest"
      plan.completion.modelDump.canonical = some evidence.data :=
    linked_eq (by simp) rfl rfl hevidence
  rw [World.restore, ho]
  simp [hload, BundleCall.objectKey, hlinked, hlinked']

variable (hforeign : srv.HonestWriters)
  (hinit : ∀ key data metadata, objects key = some (data, metadata) → HonestTag data metadata)

include hforeign hinit

/-- What is published is what a reader gets who knows nothing but the bytes of the objects, and the
    marker is the text of one manifest. -/
theorem published_restores (h : c.shared.published call name = some bundle) :
    ∃ m : BronzeCompletionManifest,
      c.shared.restore name = some (m.modelDump.canonical, bundle.artifact, bundle.evidence) ∧
      Json.loadsBytes bundle.marker = some m.modelDump.canonical ∧
      (∀ m' : BronzeCompletionManifest,
        Json.loadsBytes bundle.marker = some m'.modelDump.canonical → SameManifest m m') ∧
      Describes m.artifact bundle.artifact ∧ Describes m.evidenceManifest bundle.evidence ∧
      Describes m.evidenceManifest (evidenceBytes (call bundle.publisher).evidence.items) ∧
      m.totalRecords = (call bundle.publisher).evidence.items.length ∧
      m.outcomeCounts = outcomeCount (call bundle.publisher).evidence.items := by
  obtain ⟨plan, -, hload, hrestore, -, -, hsize, hlines⟩ :=
    restore_published hr hsucc h (honestIn_of_writers hr hforeign hinit _)
  have hwritten := plan.written_of
  refine ⟨plan.completion, hrestore, hload, fun m' hload' => ?_, hsize, hlines, ⟨?_, ?_⟩,
    hwritten.total, hwritten.counts⟩
  · rw [hload] at hload'
    exact manifest_inj (Option.some.inj hload')
  · show (evidenceBytes _).length = plan.written.spool.position
    rw [hwritten.position, hwritten.content]
    rfl
  · show sha256 (evidenceBytes _) = sha256 plan.written.digest.fed
    rw [hwritten.digest]
    rfl

end Restored

section Returned

variable [DecidableEq ι] {srv : Server} {call : ι → BundleCall}
  {objects : ObjectKey → Option (Bytes × List (String × String))}
  {c : Config ι httpSignature (World ι) Exc BronzeBundleReceipt}

/-- What is under the evidence key of a call that returned are the lines of its items. -/
theorem evidence_of_returned
    (hr : (storeSystem srv).Reachable ⟨World.initial objects, fun i => (call i).run⟩ c)
    (hother : srv.NoOtherWriter) {i : ι} (hown : OwnRun call i) {receipt : BronzeBundleReceipt}
    (hret : c.procs i = .ret receipt) (plan : BundlePlan (call i)) {o : ObjectRecord ι}
    (ho : c.shared.objects plan.evidenceCreate.key = some o) :
    o.data = evidenceBytes (call i).evidence.items := by
  obtain ⟨plan', -, hcreated⟩ := own_of_returned hr hother hown hret
  obtain rfl := plan.eq plan'
  obtain ⟨n, hcreator⟩ :=
    hcreated _ (plan.keys.get_mem .evidenceManifest) o ho
  exact stored_evidence hr plan.keys_eq ho hcreator

end Returned

/-- From the marker of each of the two sample calls a reader gets four bytes of artifact, and evidence
    that the manifest counts and that is as long as the lines of the four items. -/
theorem published_restores_sample :
    ∃ c : Config Bool httpSignature (World Bool) Exc BronzeBundleReceipt,
      (storeSystem Server.strict).Reachable ⟨World.initial fun _ => none,
        fun b => (sampleParty b).run⟩ c ∧
      ∀ b, ∃ (m : BronzeCompletionManifest) (artifact evidence : Bytes),
        c.shared.restore ("lake", (sampleKeysOf (sampleRun b) csv).completionManifest) =
          some (m.modelDump.canonical, artifact, evidence) ∧
        artifact.length = 4 ∧ m.totalRecords = 4 ∧
        ContractOutcome.members.map m.outcomeCounts = [2, 1, 1, 0] ∧
        evidence.length = (evidenceBytes (sampleEvidence (sampleRun b))).length ∧
        sha256 evidence = sha256 (evidenceBytes (sampleEvidence (sampleRun b))) := by
  obtain ⟨c, hr, hcommitted⟩ := sample_interleaved
  refine ⟨c, hr, fun b => ?_⟩
  have hhonest : (sampleParty b).HonestIn c.shared :=
    honestIn_of_writers hr (fun _ _ _ h => h.elim) (by simp) b
  obtain ⟨artifact, evidence, -, -, hbundle, hcomplete⟩ := published_of_creator hr
    Server.strict_successOnlyToCreator (sampleOf_keys (sampleRun b) csv none) hhonest rfl
    (hcommitted b).2 rfl
  obtain ⟨m, hrestore, -, -, -, hlines, hitems, htotal, hcounts⟩ := published_restores hr
    Server.strict_successOnlyToCreator (fun _ _ _ h => h.elim) (by simp) hbundle
  obtain ⟨plan, -, -, hsize, -⟩ := hcomplete
  obtain rfl := plan.eq (samplePartyPlan b)
  exact ⟨m, _, _, hrestore, hsize.1, htotal, by rw [hcounts]; rfl, hlines.1.trans hitems.1.symm,
    hlines.2.trans hitems.2.symm⟩

end EvidenceCartographer.Infrastructure
