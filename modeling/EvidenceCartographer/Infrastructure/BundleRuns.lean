import EvidenceCartographer.Infrastructure.StoreProgress

/-! Any number of `store_bundle` calls at once.

    The first result is the commit-marker invariant: in every reachable state, a completion marker a
    call created names an artifact object and an evidence object that exist, with the sizes and the
    digests it records. The second is what a marker without a receipt says: the call was never told
    how its marker PUT ended. -/

namespace EvidenceCartographer.Infrastructure

open Python Domain Application Concurrency MinioConditionalObjectClient

/-- The tag of an object, if it has one, is the digest of its bytes. -/
def HonestTag (data : Bytes) (metadata : List (String × String)) : Prop :=
  ∀ tag, getHeader metadata "x-amz-meta-ec-sha256" = some tag → tag = (sha256 data).text

/-- Other writers tag what they write with its digest. -/
def Server.HonestWriters (srv : Server) : Prop :=
  ∀ key data metadata, srv.foreign key data metadata → HonestTag data metadata

variable {ι : Type}

theorem CreateCall.Honest.record_data {create : CreateCall} (h : create.Honest) (c : ι × Nat) :
    (create.request.record c).data = create.data.rest := by
  show create.data.rest.take create.length = _
  rw [← h.whole, List.take_length]

theorem CreateCall.Honest.record_honest {create : CreateCall} (h : create.Honest) (c : ι × Nat) :
    HonestTag (create.request.record c).data (create.request.record c).metadata := by
  intro tag htag
  rw [h.record_data, h.digest]
  have hmeta : getHeader (create.request.record c).metadata "x-amz-meta-ec-sha256" =
    some create.sha256 := getHeader_sha256 _ _
  rw [hmeta] at htag
  exact (Option.some.inj htag).symm

/-- What reads back as a payload has its size and, if it was tagged honestly, its digest. -/
theorem ObjectRecord.Matches.contents {o : ObjectRecord ι} {length : Nat} {tag : String}
    (h : o.Matches length tag) (hhonest : HonestTag o.data o.metadata) :
    o.data.length = length ∧ (sha256 o.data).text = tag := by
  unfold ObjectRecord.Matches decodeMetadata at h
  have fields : ∀ {declared}, (⟨o.stat.size.getD 0, getHeader o.stat.metadata
      "x-amz-meta-ec-sha256", declared⟩ : ConditionalObjectMetadata) =
        ⟨length, some tag, some (length : Int)⟩ →
      o.data.length = length ∧ (sha256 o.data).text = tag := by
    intro declared heq
    have hsize : o.data.length = length := congrArg ConditionalObjectMetadata.sizeBytes heq
    have htag : getHeader o.metadata "x-amz-meta-ec-sha256" = some tag :=
      congrArg ConditionalObjectMetadata.sha256 heq
    exact ⟨hsize, (hhonest tag htag).symm⟩
  dsimp only at h
  split at h
  · exact fields (Except.ok.inj h)
  · split at h
    · exact fields (Except.ok.inj h)
    · cases h

/-- The bytes of the sample artifacts. -/
def sampleBytes : Bytes := [0x69, 0x64, 0x0a, 0x31]

/-- A call for a sample artifact, read in two chunks, with the sample evidence, which ends in this
    way. -/
def sampleBundleOf (run : UUID) (extension : SafeExtension) (ending : Option Exc) : BundleCall where
  bucketName := "lake"
  bronzePrefix := "bronze"
  staging := ⟨⟨true, [.ok [0x69, 0x64], .ok [0x0a, 0x31], .ok []]⟩, .none, .none⟩
  artifact := sampleArtifactOf run extension
  evidence := ⟨sampleEvidence run, ending⟩
  contractMessages := []

def sampleBundle (extension : SafeExtension) (ending : Option Exc) : BundleCall :=
  sampleBundleOf sampleId extension ending

theorem sampleOf_keys (run : UUID) (extension : SafeExtension) (ending : Option Exc) :
    (sampleBundleOf run extension ending).keys = .ok (sampleKeysOf run extension) :=
  sampleArtifactOf_keys run extension

theorem sample_keys (extension : SafeExtension) (ending : Option Exc) :
    (sampleBundle extension ending).keys = .ok (sampleKeys extension) := sampleArtifact_keys extension

/-- The staged artifact of a sample call. -/
def samplePlanOf (run : UUID) (extension : SafeExtension) (ending : Option Exc) :
    ArtifactPlan (sampleBundleOf run extension ending) where
  keys := sampleKeysOf run extension
  keys_eq := sampleOf_keys _ _ _
  snapshot := .ofBytes sampleBytes
  snapshot_eq := rfl

def samplePlan (extension : SafeExtension) (ending : Option Exc) :
    ArtifactPlan (sampleBundle extension ending) := samplePlanOf sampleId extension ending

theorem sampleEvidence_accepted (run : UUID) :
    ((sampleEvidence run).flatMap evidenceLine).length ≤ maxSinglePutSizeBytes :=
  (length_sampleLines_lt run).le.trans (by decide)

/-- A sample call whose evidence is staged too. -/
def sampleBundlePlanOf (run : UUID) (extension : SafeExtension) :
    BundlePlan (sampleBundleOf run extension none) where
  toArtifactPlan := samplePlanOf run extension none
  written := .ofItems (sampleEvidence run)
  written_eq := spoolEvidence_complete rfl (sampleEvidence_coherent run extension) (fun _ => rfl)
    (sampleEvidence_accepted run)

def sampleBundlePlan (extension : SafeExtension) : BundlePlan (sampleBundle extension none) :=
  sampleBundlePlanOf sampleId extension

/-- The URI of a key of a sample call is short. -/
theorem sampleUri_le (run : UUID) {name : String} (hname : name.utf8ByteSize ≤ 110) :
    (objectUri "lake" (samplePrefixOf run ++ name)).utf8ByteSize ≤ 344 := by
  have hbucket : ("s3://" ++ "lake" ++ "/").utf8ByteSize ≤ 20 := by decide +kernel
  have hdirectory : "bronze/met/year=2026/month=07/day=27/run=".utf8ByteSize ≤ 70 := by
    decide +kernel
  have hrun := run.utf8ByteSize_str_le
  -- given as a term: a rewrite would evaluate the literals
  have hsize : (objectUri "lake" (samplePrefixOf run ++ name)).utf8ByteSize =
      ("s3://" ++ "lake" ++ "/").utf8ByteSize +
        ("bronze/met/year=2026/month=07/day=27/run=".utf8ByteSize + run.str.utf8ByteSize +
          name.utf8ByteSize) :=
    String.utf8ByteSize_append.trans (congrArg _ (String.utf8ByteSize_append.trans
      (congrArg (· + name.utf8ByteSize) String.utf8ByteSize_append)))
  omega

theorem sampleKeysOf_uri_le (run : UUID) {extension : SafeExtension}
    (hextension : extension.val.utf8ByteSize ≤ 100) :
    (objectUri "lake" (sampleKeysOf run extension).artifact).utf8ByteSize ≤ 344 ∧
      (objectUri "lake" (sampleKeysOf run extension).evidenceManifest).utf8ByteSize ≤ 344 := by
  have hsource : ("/source." ++ extension.val).utf8ByteSize ≤ 110 := by
    have htext : "/source.".utf8ByteSize ≤ 10 := by decide +kernel
    rw [String.utf8ByteSize_append]
    omega
  have hartifact := sampleUri_le run hsource
  rw [← String.append_assoc] at hartifact
  exact ⟨hartifact, sampleUri_le run (by decide +kernel)⟩

theorem width_sampleCompletion_le (run : UUID) {extension : SafeExtension}
    (hextension : extension.val.utf8ByteSize ≤ 100) :
    (sampleBundlePlanOf run extension).completion.modelDump.width ≤ 10000 := by
  obtain ⟨hartifact, hevidence⟩ := sampleKeysOf_uri_le run hextension
  have hcounts : ∀ outcome, outcomeCount (sampleEvidence run) outcome < 10 ^ 5 := by
    intro outcome
    have hle : outcomeCount (sampleEvidence run) outcome ≤ (sampleEvidence run).length :=
      List.countP_le_length
    rw [length_sampleEvidence] at hle
    omega
  have hwidth : (sampleBundlePlanOf run extension).completion.modelDump.width ≤
      6 * ("https://museum.example/MetObjects.csv".utf8ByteSize + "1.0.0".utf8ByteSize +
        (objectUri "lake" (sampleKeysOf run extension).artifact).utf8ByteSize +
        (objectUri "lake" (sampleKeysOf run extension).evidenceManifest).utf8ByteSize) +
      run.dump.width + sampleInstant.dump.width +
      Json.widthItems (([] : List ValidationMessage).map (·.modelDump)) + 7 * 5 + 3000 :=
    BronzeCompletionManifest.width_modelDump_le (k := 5) (by decide) (show (4 : Nat) < _ by decide)
      (length_sampleLines_lt run) (show (sampleEvidence run).length < _ by
        rw [length_sampleEvidence]; decide) hcounts
  have hrest : 6 * ("https://museum.example/MetObjects.csv".utf8ByteSize + "1.0.0".utf8ByteSize) +
      sampleInstant.dump.width ≤ 1000 := by decide +kernel
  rw [run.width_dump, List.map_nil, Json.widthItems] at hwidth
  omega

theorem sampleBundlePlanOf_ready (run : UUID) {extension : SafeExtension}
    (hextension : extension.val.utf8ByteSize ≤ 100) : (sampleBundlePlanOf run extension).Ready where
  isFile := rfl
  artifactSpool := rfl
  artifactRewind := rfl
  evidenceSpool := rfl
  evidenceRewind := rfl
  artifact := by show (4 : Nat) ≤ _; decide
  evidence := BundlePlan.evidence_accepted rfl (sampleEvidence_accepted run)
  marker := BundlePlan.marker_accepted
    ((Nat.mul_le_mul_left 4 (width_sampleCompletion_le run hextension)).trans (by decide))

theorem sampleBundlePlan_ready {extension : SafeExtension}
    (hextension : extension.val.utf8ByteSize ≤ 100) : (sampleBundlePlan extension).Ready :=
  sampleBundlePlanOf_ready sampleId hextension

theorem csv_ready : (sampleBundlePlan csv).Ready := sampleBundlePlan_ready (by decide)

theorem Server.strict_grants : Server.strict.answers 200 .landed true := .inl ⟨rfl, rfl⟩

/-- The sample call alone, on an empty store: it commits. -/
theorem sample_committed : ∃ c : Config Unit httpSignature (World Unit) Exc BronzeBundleReceipt,
    (storeSystem Server.strict).Reachable ⟨World.initial fun _ => none,
      fun _ => (sampleBundle csv none).run⟩ c ∧
    c.procs () = .ret (sampleBundlePlan csv).receipt ∧
    c.shared.objects (sampleBundlePlan csv).markerCreate.key =
      some ((sampleBundlePlan csv).markerCreate.request.record ((), 2)) := by
  obtain ⟨w', hrun, hl⟩ := runs_storeBundle_committed (i := ()) (w := World.initial fun _ => none)
    Server.strict_grants csv_ready fun _ _ => rfl
  refine ⟨_, hrun.reachable rfl .refl, ?_, hl.marker⟩
  dsimp only
  rw [Function.update_self]; rfl

/-- The ids of two sample runs. -/
def sampleRun : Bool → UUID
  | true => sampleId
  | false => .ofNat 2

theorem sampleRun_injective : ∀ b b', sampleRun b = sampleRun b' → b = b' := by decide

/-- One sample call for each of them. -/
def sampleParty (b : Bool) : BundleCall := sampleBundleOf (sampleRun b) csv none

def samplePartyPlan (b : Bool) : BundlePlan (sampleParty b) := sampleBundlePlanOf (sampleRun b) csv

theorem samplePartyPlan_ready (b : Bool) : (samplePartyPlan b).Ready :=
  sampleBundlePlanOf_ready (sampleRun b) (by decide)

theorem sampleParty_disjoint : ∀ name ∈ (samplePartyPlan true).keys.toList,
    ∀ name' ∈ (samplePartyPlan false).keys.toList, name ≠ name' := by
  decide +kernel

/-- Two sample calls at once, on an empty store: the second commits while the first has looked at its
    keys and created nothing, and then the first commits too. -/
theorem sample_interleaved : ∃ c : Config Bool httpSignature (World Bool) Exc BronzeBundleReceipt,
    (storeSystem Server.strict).Reachable ⟨World.initial fun _ => none,
      fun b => (sampleParty b).run⟩ c ∧
    ∀ b, c.procs b = .ret (samplePartyPlan b).receipt ∧
      c.shared.objects (samplePartyPlan b).markerCreate.key =
        some ((samplePartyPlan b).markerCreate.request.record (b, 2)) := by
  obtain ⟨p, w₁, hreach, hsame, hrest⟩ := reaches_storeBundle Server.strict true
    (w := World.initial fun _ => none) (samplePartyPlan_ready true) fun _ _ => rfl
  have hempty : ∀ key, w₁.objects key = none := fun key => congrFun hsame.1 key
  obtain ⟨w₂, hrun, hl⟩ := runs_storeBundle_committed (i := false) (w := w₁) Server.strict_grants
    (samplePartyPlan_ready false) fun _ _ => hempty _
  have hfree : ∀ name ∈ (samplePartyPlan true).keys.toList,
      w₂.objects ((sampleParty true).objectKey name) = none := by
    intro name hname
    rw [hl.others _ fun name' hname' heq =>
      sampleParty_disjoint name hname name' hname' (congrArg Prod.snd heq)]
    exact hempty _
  obtain ⟨w₃, w₄, w₅, hrun₁, hrun₂, hrun₃, hl'⟩ := runs_creates (i := true) Server.strict_grants
    (samplePartyPlan_ready true) hfree fun _ hfree => runs_create Server.strict_grants
      (samplePartyPlan_ready true).marker (samplePartyPlan true).markerCreate_honest.whole hfree
  have hsize : w₂.puts.size true = 0 := by
    rw [(hrun.rely (j := true) (by decide)).putSize, hsame.2]
    rfl
  let procs (b : Bool) := (sampleParty b).run
  have hreach : (storeSystem Server.strict).Reaches true (procs true) _ _ _ := hreach
  obtain ⟨procs', hreached, hfirst, hsecond⟩ :=
    hreach.interleaved (by decide) hrun (hrest _ _ _ _ _ hrun₁ hrun₂ hrun₃)
  refine ⟨⟨w₅, procs'⟩, hreached, fun b => ?_⟩
  cases b with
  | true =>
    refine ⟨hfirst, ?_⟩
    have hmarker := hl'.marker
    rw [hsize] at hmarker
    exact hmarker
  | false =>
    refine ⟨hsecond, ?_⟩
    have hmarker : w₂.objects (samplePartyPlan false).markerCreate.key = _ := hl.marker
    rw [hsame.2] at hmarker
    refine Eq.trans ?_ hmarker
    exact hl'.others _ fun name hname heq => sampleParty_disjoint name hname _
      ((samplePartyPlan false).keys.get_mem .completionManifest) (congrArg Prod.snd heq).symm

def sampleTimeout : Exc := .osError "TimeoutError" "timed out"

/-- A server that keeps its promises about PUTs, and may let a HEAD request time out. -/
def Server.flaky : Server := { Server.strict with statFails := (· = sampleTimeout) }

/-- The sample call alone, on an empty store: its marker takes effect, but both the answer and the
    HEAD request of the reconciliation time out. -/
theorem sample_lost : ∃ (c : Config Unit httpSignature (World Unit) Exc BronzeBundleReceipt) (e : Exc),
    (storeSystem Server.flaky).Reachable ⟨World.initial fun _ => none,
      fun _ => (sampleBundle csv none).run⟩ c ∧
    c.procs () = .raise e ∧
    c.shared.objects (sampleBundlePlan csv).markerCreate.key =
      some ((sampleBundlePlan csv).markerCreate.request.record ((), 2)) := by
  have hsrv : Server.flaky.answers 200 .landed true := .inl ⟨rfl, rfl⟩
  obtain ⟨w', hrun, hl⟩ := runs_storeBundle (i := ()) (w := World.initial fun _ => none) hsrv
    csv_ready (fun _ _ => rfl) fun w₂ hfree =>
      runs_create_lost rfl rfl sampleTimeout csv_ready.marker
        (sampleBundlePlan csv).markerCreate_honest.whole hfree
  refine ⟨_, putError (objectUri "lake" (sampleBundlePlan csv).keys.completionManifest)
    (.conditionalPutError (exceptionDiagnostic sampleTimeout) 1 (some sampleTimeout)),
    hrun.reachable rfl .refl, ?_, hl.marker⟩
  dsimp only
  rw [Function.update_self]; rfl

section Runs

variable [DecidableEq ι] {srv : Server} {call : ι → BundleCall}
  {objects : ObjectKey → Option (Bytes × List (String × String))}
  {c : Config ι httpSignature (World ι) Exc BronzeBundleReceipt}

section Reached

variable (hr : (storeSystem srv).Reachable ⟨World.initial objects, fun i => (call i).run⟩ c)

include hr

theorem bundleGuarded_of_reachable (i : ι) :
    (storeSystem srv).Guarded i (Orderly (call i) i)
      (fun r w => Orderly (call i) i w ∧ BundleEnding (call i) i (World.initial objects) w r) c := by
  refine hr.safe (fun w w' hr' hw => (Orderly.keptQuietly (call i) i).quiet hr'.quiet hw) ?_
    (safe_storeBundle rfl)
  intro n p hp
  simp [World.initial] at hp

theorem orderly_of_reachable (i : ι) : Orderly (call i) i c.shared :=
  (bundleGuarded_of_reachable hr i).inv

/-- A marker that a call created carries its payload, and the two other objects are secured. -/
theorem secured_of_marker {i : ι} {n : Nat} {keys : BronzeObjectKeys} {o : ObjectRecord ι}
    (hkeys : (call i).keys = .ok keys)
    (ho : c.shared.objects ((call i).objectKey keys.completionManifest) = some o)
    (hcreator : o.creator = some (i, n)) :
    ∃ plan : BundlePlan (call i), plan.keys = keys ∧
      o = plan.markerCreate.request.record (i, n) ∧
      o.Matches plan.markerCreate.length plan.markerCreate.sha256 ∧
      c.shared.Secured i plan.create ∧ c.shared.Secured i plan.evidenceCreate := by
  obtain ⟨p, hp, hl, hkey⟩ := c.shared.created _ o i n ho hcreator
  rcases (orderly_of_reachable hr i n p hp).notMarker with hnot | ⟨plan, hreq, ha, hsec₁, hsec₂⟩
  · exact absurd hkey (hnot keys hkeys)
  obtain rfl := plan.keys_unique hkeys
  obtain ⟨hobj, hm⟩ := ha.landed hp hl hreq
  obtain rfl : o = plan.markerCreate.request.record (i, n) := Option.some.inj (ho.symm.trans hobj)
  exact ⟨plan, rfl, rfl, hm, hsec₁, hsec₂⟩

/-- Objects of other writers are tagged honestly. -/
theorem foreign_honest (hforeign : srv.HonestWriters)
    (hinit : ∀ key data metadata, objects key = some (data, metadata) → HonestTag data metadata) :
    ∀ key o, c.shared.objects key = some o → o.creator = none → HonestTag o.data o.metadata := by
  refine hr.shared (fun w => ∀ key o, w.objects key = some o → o.creator = none →
    HonestTag o.data o.metadata) ?_ ?_ ?_
  · intro w w' hs hw key o ho hc
    cases hs with
    | land i n p hp hwhole habsent _ =>
      rcases World.put_cases ho with ⟨rfl, rfl⟩ | hold
      · cases hc
      · exact hw key o hold hc
    | refuse | observe => exact hw key o ho hc
    | foreign key' data metadata habsent hf =>
      rcases World.put_cases ho with ⟨rfl, rfl⟩ | hold
      · exact hforeign _ _ _ hf
      · exact hw key o hold hc
  · intro i o r w w' hx hw
    cases hx <;> exact hw
  · intro key o ho _
    obtain ⟨x, hx, rfl⟩ := Option.map_eq_some_iff.mp ho
    exact hinit key x.1 x.2 hx

/-- What a call has created is tagged honestly. -/
theorem created_honest {key : ObjectKey} {o : ObjectRecord ι} {creator : ι × Nat}
    (ho : c.shared.objects key = some o) (hc : o.creator = some creator) :
    HonestTag o.data o.metadata := by
  obtain ⟨i, n⟩ := creator
  obtain ⟨p, hp, hl, hkey⟩ := c.shared.created key o i n ho hc
  obtain ⟨-, hstored⟩ := c.shared.stored i n p hp hl
  rw [hkey, ho] at hstored
  obtain rfl := Option.some.inj hstored
  obtain ⟨create, hreq, hhonest, -⟩ := (orderly_of_reachable hr i n p hp).create
  rw [hreq]; exact hhonest.record_honest _

/-- Every object is tagged honestly. -/
theorem objects_honest (hforeign : srv.HonestWriters)
    (hinit : ∀ key data metadata, objects key = some (data, metadata) → HonestTag data metadata)
    {key : ObjectKey} {o : ObjectRecord ι} (ho : c.shared.objects key = some o) :
    HonestTag o.data o.metadata := by
  cases hc : o.creator with
  | none => exact foreign_honest hr hforeign hinit key o ho hc
  | some creator => exact created_honest hr ho hc

end Reached

/-- The key holds an object with the URI, the size and the digest recorded. -/
def World.Stores (w : World ι) (bucketName key : String) (object : StoredObject) : Prop :=
  object.uri = objectUri bucketName key ∧ ∃ o, w.objects (bucketName, key) = some o ∧
    o.data.length = object.sizeBytes ∧ sha256 o.data = object.sha256

/-- A completion marker that a call created records an artifact object and an evidence object that
    exist, and their contents. -/
theorem completionMarker_records_stored_objects
    (hr : (storeSystem srv).Reachable ⟨World.initial objects, fun i => (call i).run⟩ c)
    (hsucc : srv.SuccessOnlyToCreator) (hforeign : srv.HonestWriters)
    (hinit : ∀ key data metadata, objects key = some (data, metadata) → HonestTag data metadata)
    {i : ι} {n : Nat} {keys : BronzeObjectKeys} {o : ObjectRecord ι}
    (hkeys : (call i).keys = .ok keys)
    (hobj : c.shared.objects ((call i).objectKey keys.completionManifest) = some o)
    (hcreator : o.creator = some (i, n)) :
    ∃ m : BronzeCompletionManifest, o.data = canonicalJson m.modelDump ∧
      c.shared.Stores (call i).bucketName keys.artifact m.artifact ∧
      c.shared.Stores (call i).bucketName keys.evidenceManifest m.evidenceManifest := by
  obtain ⟨plan, rfl, rfl, -, hsec₁, hsec₂⟩ := secured_of_marker hr hkeys hobj hcreator
  have htruth := truthfulTo_reachable hr i
  -- a secured payload is there, with its size and digest
  have stores : ∀ (create : CreateCall), c.shared.Secured i create →
      ∃ a, c.shared.objects create.key = some a ∧ a.data.length = create.length ∧
        (sha256 a.data).text = create.sha256 := by
    intro create hsec
    obtain ⟨a, ho, hm⟩ := hsec.holds hsucc htruth
    exact ⟨a, ho, hm.contents (objects_honest hr hforeign hinit ho)⟩
  refine ⟨plan.completion, ?_, ⟨rfl, ?_⟩, ⟨rfl, ?_⟩⟩
  · rw [plan.markerCreate_honest.record_data]; rfl
  · obtain ⟨a, ho, hlen, hsha⟩ := stores _ hsec₁
    exact ⟨a, ho, hlen, Sha256Hex.ext' hsha⟩
  · obtain ⟨a, ho, hlen, hsha⟩ := stores _ hsec₂
    exact ⟨a, ho, hlen, Sha256Hex.ext' hsha⟩

theorem bundleEnding_of_reachable
    (hr : (storeSystem srv).Reachable ⟨World.initial objects, fun i => (call i).run⟩ c) {i : ι}
    {r : Except Exc BronzeBundleReceipt} (ho : (c.procs i).outcome = some r) :
    BundleEnding (call i) i (World.initial objects) c.shared r :=
  ((bundleGuarded_of_reachable hr i).post (fun _ _ hrely h =>
    ⟨(Orderly.keptQuietly (call i) i).quiet hrely.quiet h.1, h.2.rely hrely⟩) ho).2

/-- The PUT was answered neither with success nor with a rejection, or not at all. -/
def Uncertain (answer : Except Exc HttpResponse) : Prop :=
  ¬ Succeeded answer ∧ ¬ ClientError answer

/-- The last answer is a HEAD request that failed or saw nothing. -/
def World.Unseen (w : World ι) (i : ι) : Prop := ∃ e, w.lastAnswer i = some (.stat (.error e))

/-- The last answer is a PUT's, with a status that the loop gives up at without a HEAD request. -/
def World.GivenUp (w : World ι) (i : ι) : Prop :=
  ∃ response, w.lastAnswer i = some (.put (.ok response)) ∧ ¬ Succeeded (.ok response) ∧
    ¬ Ambiguous (.ok response) ∧ ¬ HasStatus 412 (.ok response)

/-- A call that raised and whose marker exists never learned the fate of that PUT, and says so. -/
theorem storeBundle_raise_marker_uncertain
    (hr : (storeSystem srv).Reachable ⟨World.initial objects, fun i => (call i).run⟩ c)
    (hrej : srv.RejectionIsFinal) {i : ι} {n : Nat} {e : Exc} {keys : BronzeObjectKeys}
    {o : ObjectRecord ι} (hraise : c.procs i = .raise e) (hkeys : (call i).keys = .ok keys)
    (hobj : c.shared.objects ((call i).objectKey keys.completionManifest) = some o)
    (hcreator : o.creator = some (i, n)) :
    (∃ p answer, c.shared.puts.entry i n = some p ∧ p.answer = some answer ∧ Uncertain answer) ∧
    ¬ c.shared.Conclusive i ∧ (c.shared.Unseen i ∨ c.shared.GivenUp i) ∧
    ∃ diagnostic attempts cause, e = .objectStoreError ("could not write " ++
      (call i).store.uri keys.completionManifest ++ ": " ++
        (Exc.conditionalPutError diagnostic attempts cause).str) := by
  have ho : (c.procs i).outcome = some (.error e) := by rw [hraise]; rfl
  obtain ⟨p, hp, hl, hkey⟩ := c.shared.created _ o i n hobj hcreator
  have htruth := truthfulTo_reachable hr i
  cases bundleEnding_of_reachable hr ho with
  | unmarked _ hnot => exact absurd hkey (hnot n p hp keys hkeys)
  | marker plan w₁ e hnot hend =>
    obtain rfl := plan.keys_unique hkeys
    -- the PUT of the marker is one of those of the create that failed
    have hn : w₁.puts.size i ≤ n := by
      by_contra hlt
      obtain ⟨q, hq⟩ := Log.entry_of_lt (Nat.lt_of_not_le hlt)
      obtain ⟨q', hq', hreq, -⟩ := hend.since.puts n q hq
      rw [hp] at hq'; cases hq'
      exact hnot n q hq _ hkeys (hreq ▸ hkey)
    obtain ⟨hreq, answer, hans, hfail⟩ := (hend.failed e rfl).attempts n p hn hp
    have huncertain : Uncertain answer := by
      refine ⟨hfail, fun hclient => ?_⟩
      have := htruth.refused hrej hp hans hclient
      rw [hl] at this; cases this
    -- so what the key holds is the payload of the marker
    have hsame : ∀ o', c.shared.objects plan.markerCreate.request.key = some o' →
        o'.Matches plan.markerCreate.length plan.markerCreate.sha256 := by
      obtain ⟨plan', -, rfl, hm, -⟩ := secured_of_marker hr hkeys hobj hcreator
      obtain rfl := plan.eq plan'
      intro o' ho'
      obtain rfl := Option.some.inj (hobj.symm.trans ho')
      exact hm
    refine ⟨⟨p, answer, hp, hans, huncertain⟩, ?_⟩
    cases hend.ending with
    | tooLarge _ _ hsize =>
      have := Log.lt_size hp
      omega
    | occupied _ _ _ _ _ _ _ _ _ hclean =>
      exact absurd (clientError_of_hasStatus (hclean n p answer hn hp hans)) huncertain.2
    | conflict _ o' ho' hno _ => exact absurd (hsame o' ho') hno
    | undecoded _ _ _ o' ho' hno _ => exact absurd (hsame o' ho') hno
    | rejected diagnostic attempts _ response hfail' hlast _ _ hamb h412 _ =>
      refine ⟨?_, .inr ⟨response, hlast, hfail', hamb, h412⟩, diagnostic, attempts, none, rfl⟩
      rintro (⟨answer', hlast', hs⟩ | ⟨stat, hlast'⟩)
      · rw [hlast] at hlast'; cases hlast'
        exact hfail' hs
      · rw [hlast] at hlast'; cases hlast'
    | unseen diagnostic attempts cause e' hlast =>
      refine ⟨?_, .inl ⟨e', hlast⟩, diagnostic, attempts, cause, rfl⟩
      rintro (⟨answer', hlast', hs⟩ | ⟨stat, hlast'⟩)
      · rw [hlast] at hlast'; cases hlast'
      · rw [hlast] at hlast'; cases hlast'

end Runs

theorem storeBundle_raise_marker_uncertain_sample :
    ∃ c : Config Unit httpSignature (World Unit) Exc BronzeBundleReceipt,
      (storeSystem Server.flaky).Reachable ⟨World.initial fun _ => none,
        fun _ => (sampleBundle csv none).run⟩ c ∧
      (∃ p answer, c.shared.puts.entry () 2 = some p ∧ p.answer = some answer ∧ Uncertain answer) ∧
      ¬ c.shared.Conclusive () ∧ (c.shared.Unseen () ∨ c.shared.GivenUp ()) := by
  obtain ⟨c, e, hr, hraise, hobj⟩ := sample_lost
  have h := storeBundle_raise_marker_uncertain hr Server.strict_rejectionIsFinal hraise
    (sample_keys _ _) hobj rfl
  exact ⟨c, hr, h.1, h.2.1, h.2.2.1⟩

/-- A call that raises can leave its marker behind: it is told nothing of the PUT that created it. -/
theorem storeBundle_raise_leaves_marker : ¬ ∀ (srv : Server) (call : Unit → BundleCall)
    (c : Config Unit httpSignature (World Unit) Exc BronzeBundleReceipt),
    srv.SuccessOnlyToCreator → srv.RejectionIsFinal → srv.NoOtherWriter →
    (storeSystem srv).Reachable ⟨World.initial fun _ => none, fun i => (call i).run⟩ c →
    ∀ e keys o, c.procs () = .raise e → (call ()).keys = .ok keys →
      c.shared.objects ((call ()).objectKey keys.completionManifest) = some o →
      ∀ n, o.creator ≠ some ((), n) := by
  intro h
  obtain ⟨c, e, hr, hraise, hobj⟩ := sample_lost
  exact h .flaky (fun _ => sampleBundle csv none) c Server.strict_successOnlyToCreator
    Server.strict_rejectionIsFinal Server.strict_noOtherWriter hr e _ _ hraise (sample_keys _ _)
    hobj 2 rfl

/-- Both sample calls that ran at once have left their markers, with these bytes. -/
theorem completionMarker_records_stored_objects_sample :
    ∃ c : Config Bool httpSignature (World Bool) Exc BronzeBundleReceipt,
      (storeSystem Server.strict).Reachable ⟨World.initial fun _ => none,
        fun b => (sampleParty b).run⟩ c ∧
      ∀ b, ∃ (o : ObjectRecord Bool) (m : BronzeCompletionManifest),
        c.shared.objects (samplePartyPlan b).markerCreate.key = some o ∧
        o.data = canonicalJson (samplePartyPlan b).completion.modelDump ∧
        o.data = canonicalJson m.modelDump ∧
        c.shared.Stores "lake" (sampleKeysOf (sampleRun b) csv).artifact m.artifact ∧
        c.shared.Stores "lake" (sampleKeysOf (sampleRun b) csv).evidenceManifest
          m.evidenceManifest := by
  obtain ⟨c, hr, hcommitted⟩ := sample_interleaved
  refine ⟨c, hr, fun b => ?_⟩
  have hobj := (hcommitted b).2
  obtain ⟨m, hbytes, hstores⟩ := completionMarker_records_stored_objects hr
    Server.strict_successOnlyToCreator (fun _ _ _ h => h.elim) (by simp)
    (sampleOf_keys (sampleRun b) csv none) hobj rfl
  exact ⟨_, m, hobj, (samplePartyPlan b).markerCreate_honest.record_data _, hbytes, hstores⟩

end EvidenceCartographer.Infrastructure
