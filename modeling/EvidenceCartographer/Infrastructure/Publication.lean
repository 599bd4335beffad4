import EvidenceCartographer.Concurrency.Refinement
import EvidenceCartographer.Infrastructure.AbandonedPrefix
import EvidenceCartographer.Infrastructure.KeySegments

/-! `store_bundle` publishes a bundle at one moment.

    A reader who starts from a completion marker sees a registry: under each marker key that a call
    created, the artifact, the evidence and the marker of one bundle. Any number of concurrent calls
    refine the registry that writes every entry once: the PUT of a marker that takes effect publishes
    a complete bundle, and no other step of the store, of another writer or of a call changes
    anything a reader sees. -/

namespace EvidenceCartographer.Infrastructure

open Python Domain Application Concurrency

/-- These bytes have the size and the digest recorded. -/
def Describes (object : StoredObject) (data : Bytes) : Prop :=
  data.length = object.sizeBytes ∧ sha256 data = object.sha256

/-- What a reader finds under a marker, and the call that created the marker. -/
structure PublishedBundle (ι : Type) where
  publisher : ι
  artifact : Bytes
  evidence : Bytes
  marker : Bytes

variable {ι : Type} (call : ι → BundleCall)

/-- The bundle a reader finds from the marker with this name. -/
def World.published (w : World ι) : Registry ObjectKey (PublishedBundle ι) := fun name => do
  let marker ← w.objects name
  let creator ← marker.creator
  let keys ← (call creator.1).keys.toOption
  if (call creator.1).objectKey keys.completionManifest = name then
    let artifact ← w.objects ((call creator.1).objectKey keys.artifact)
    let evidence ← w.objects ((call creator.1).objectKey keys.evidenceManifest)
    some ⟨creator.1, artifact.data, evidence.data, marker.data⟩
  else none

/-- The whole bundle of one call: the marker, and an artifact and an evidence manifest with the sizes
    and the digests that it records. -/
def Complete (name : ObjectKey) (bundle : PublishedBundle ι) : Prop :=
  ∃ plan : BundlePlan (call bundle.publisher), name = plan.markerCreate.key ∧
    bundle.marker = canonicalJson plan.completion.modelDump ∧
    Describes plan.object bundle.artifact ∧ Describes plan.evidenceObject bundle.evidence

variable {call} {w w' : World ι} {name : ObjectKey}

theorem World.published_free (h : w.objects name = none) : w.published call name = none := by
  simp [World.published, h]

/-- What a reader finds under a name depends on the object there and, where that is a marker, on
    the two objects of its bundle. -/
theorem World.published_congr (hname : w'.objects name = w.objects name)
    (hkeep : ∀ i n keys o, (call i).keys = .ok keys →
      (call i).objectKey keys.completionManifest = name → w.objects name = some o →
      o.creator = some (i, n) →
      w'.objects ((call i).objectKey keys.artifact) = w.objects ((call i).objectKey keys.artifact) ∧
      w'.objects ((call i).objectKey keys.evidenceManifest) =
        w.objects ((call i).objectKey keys.evidenceManifest)) :
    w'.published call name = w.published call name := by
  simp only [World.published, hname]
  cases ho : w.objects name with
  | none => rfl
  | some o =>
  cases hc : o.creator with
  | none => simp [hc]
  | some creator =>
  obtain ⟨i, n⟩ := creator
  cases hkeys : (call i).keys with
  | error e => simp [hc, hkeys, Except.toOption]
  | ok keys =>
  by_cases hmarker : (call i).objectKey keys.completionManifest = name
  · obtain ⟨hartifact, hevidence⟩ := hkeep i n keys o hkeys hmarker ho hc
    simp [hc, hkeys, Except.toOption, hmarker, hartifact, hevidence]
  · simp [hc, hkeys, Except.toOption, hmarker]

/-- Whatever a reader finds is under a marker that its publisher created. -/
theorem World.creator_of_published {bundle : PublishedBundle ι}
    (h : w.published call name = some bundle) : ∃ n keys o, (call bundle.publisher).keys = .ok keys ∧
      (call bundle.publisher).objectKey keys.completionManifest = name ∧ w.objects name = some o ∧
      o.creator = some (bundle.publisher, n) := by
  simp only [World.published] at h
  cases ho : w.objects name with
  | none => simp [ho] at h
  | some o =>
  cases hc : o.creator with
  | none => simp [ho, hc] at h
  | some creator =>
  obtain ⟨i, n⟩ := creator
  cases hkeys : (call i).keys with
  | error e => simp [ho, hc, hkeys, Except.toOption] at h
  | ok keys =>
  by_cases hmarker : (call i).objectKey keys.completionManifest = name
  · simp [ho, hc, hkeys, hmarker, Except.toOption, Option.bind_eq_some_iff] at h
    obtain ⟨artifact, -, evidence, -, rfl⟩ := h
    exact ⟨n, keys, o, hkeys, hmarker, rfl, hc⟩
  · simp [ho, hc, hkeys, hmarker, Except.toOption] at h

variable [DecidableEq ι] {srv : Server}

/-- The step lemma of the store: a step creates at most one object, under a key that was free. -/
theorem step_objects {α : Type} {c c' : Config ι httpSignature (World ι) Exc α}
    (h : (storeSystem srv).Step c c') : c'.shared.objects = c.shared.objects ∨
      ∃ key o, c.shared.objects key = none ∧
        c'.shared.objects = World.put c.shared.objects key o := by
  cases h with
  | env hs =>
    cases hs with
    | land i n p hp hwhole habsent hpending => exact .inr ⟨_, _, habsent, rfl⟩
    | refuse | observe => exact .inl rfl
    | foreign key data metadata habsent hforeign => exact .inr ⟨_, _, habsent, rfl⟩
  | run i r hp hx => cases hx <;> exact .inl rfl

variable {objects : ObjectKey → Option (Bytes × List (String × String))}
  {c c' : Config ι httpSignature (World ι) Exc BronzeBundleReceipt}

/-- What lies under the keys of a call is tagged honestly. -/
def BundleCall.HonestIn (call : BundleCall) (w : World ι) : Prop :=
  ∀ keys, call.keys = .ok keys → ∀ key ∈ keys.toList, ∀ o,
    w.objects (call.objectKey key) = some o → HonestTag o.data o.metadata

section Reached

variable (hr : (storeSystem srv).Reachable ⟨World.initial objects, fun i => (call i).run⟩ c)
  (hsucc : srv.SuccessOnlyToCreator)

include hr hsucc

/-- A secured payload is there, with its size and, if what is there is tagged honestly, its digest. -/
theorem describes_of_secured {i : ι} {create : CreateCall} (hsec : c.shared.Secured i create)
    (hhonest : ∀ o, c.shared.objects create.key = some o → HonestTag o.data o.metadata) :
    ∃ o, c.shared.objects create.key = some o ∧ o.data.length = create.length ∧
      (sha256 o.data).text = create.sha256 := by
  obtain ⟨o, ho, hm⟩ := hsec.holds hsucc (truthfulTo_reachable hr i)
  exact ⟨o, ho, hm.contents (hhonest o ho)⟩

/-- The three payloads of a plan, where they are secured. -/
theorem described {i j : ι} (plan : BundlePlan (call i)) (hhonest : (call i).HonestIn c.shared)
    {create : CreateCall} (hsec : c.shared.Secured j create) (kind : KeyKind)
    (hkey : create.key = (call i).objectKey (plan.keys.get kind)) :
    ∃ o, c.shared.objects create.key = some o ∧ o.data.length = create.length ∧
      (sha256 o.data).text = create.sha256 :=
  describes_of_secured hr hsucc hsec fun o ho =>
    hhonest _ plan.keys_eq _ (plan.keys.get_mem kind) o (hkey ▸ ho)

/-- Under the marker of a call that created it, a reader finds a complete bundle. -/
theorem published_of_creator {i : ι} {n : Nat} {keys : BronzeObjectKeys} {o : ObjectRecord ι}
    (hkeys : (call i).keys = .ok keys) (hhonest : (call i).HonestIn c.shared)
    (hname : (call i).objectKey keys.completionManifest = name)
    (ho : c.shared.objects name = some o) (hc : o.creator = some (i, n)) :
    ∃ artifact evidence, c.shared.objects ((call i).objectKey keys.artifact) = some artifact ∧
      c.shared.objects ((call i).objectKey keys.evidenceManifest) = some evidence ∧
      c.shared.published call name = some ⟨i, artifact.data, evidence.data, o.data⟩ ∧
      Complete call name ⟨i, artifact.data, evidence.data, o.data⟩ := by
  subst hname
  obtain ⟨plan, rfl, rfl, -, hsec₁, hsec₂⟩ := secured_of_marker hr hkeys ho hc
  obtain ⟨artifact, hartifact, hlen₁, hsha₁⟩ := described hr hsucc plan hhonest hsec₁ .artifact rfl
  obtain ⟨evidence, hevidence, hlen₂, hsha₂⟩ :=
    described hr hsucc plan hhonest hsec₂ .evidenceManifest rfl
  refine ⟨artifact, evidence, hartifact, hevidence, ?_, plan, rfl, ?_, ⟨hlen₁, Sha256Hex.ext' hsha₁⟩,
    hlen₂, Sha256Hex.ext' hsha₂⟩
  · have hartifact' : c.shared.objects ((call i).objectKey plan.keys.artifact) = some artifact :=
      hartifact
    have hevidence' : c.shared.objects ((call i).objectKey plan.keys.evidenceManifest) =
      some evidence := hevidence
    simp [World.published, ho, hc, hkeys, hartifact', hevidence', Except.toOption]
  · rw [plan.markerCreate_honest.record_data]; rfl

variable (hforeign : srv.HonestWriters)
  (hinit : ∀ key data metadata, objects key = some (data, metadata) → HonestTag data metadata)

include hforeign hinit

omit hsucc in
/-- Honest writers leave honest tags everywhere. -/
theorem honestIn_of_writers (i : ι) : (call i).HonestIn c.shared :=
  fun _ _ _ _ _ ho => objects_honest hr hforeign hinit ho

/-- Whatever a reader finds is a complete bundle. -/
theorem complete_of_published {bundle : PublishedBundle ι}
    (h : c.shared.published call name = some bundle) : Complete call name bundle := by
  obtain ⟨n, keys, o, hkeys, hname, ho, hc⟩ := World.creator_of_published h
  obtain ⟨artifact, evidence, -, -, hbundle, hcomplete⟩ :=
    published_of_creator hr hsucc hkeys (honestIn_of_writers hr hforeign hinit _) hname ho hc
  rw [h] at hbundle
  exact (Option.some.inj hbundle).symm ▸ hcomplete

/-- Under a name that keeps its object a reader finds what was there before. -/
theorem published_kept (hs : (storeSystem srv).Step c c')
    (hname : c'.shared.objects name = c.shared.objects name) :
    c'.shared.published call name = c.shared.published call name := by
  refine World.published_congr hname fun i n keys o hkeys hmarker ho hc => ?_
  obtain ⟨artifact, evidence, hartifact, hevidence, -⟩ :=
    published_of_creator hr hsucc hkeys (honestIn_of_writers hr hforeign hinit i) hmarker ho hc
  rcases step_objects hs with heq | ⟨key, o', hfree, heq⟩
  · simp only [heq, and_self]
  · simp only [heq, hartifact, hevidence, World.put_of_some hfree hartifact,
      World.put_of_some hfree hevidence, and_self]

/-- The step lemma of a reader: one complete bundle is published, or nothing changes. -/
theorem published_step (hs : (storeSystem srv).Step c c') :
    c'.shared.published call = c.shared.published call ∨
      ∃ entry, Registry.Publish (Complete call) (c.shared.published call) entry
        (c'.shared.published call) := by
  have hr' : (storeSystem srv).Reachable ⟨World.initial objects, fun i => (call i).run⟩ c' :=
    hr.tail hs
  rcases step_objects hs with heq | ⟨key, o, hfree, heq⟩
  · exact .inl (funext fun name => published_kept hr hsucc hforeign hinit hs (by rw [heq]))
  have hother : ∀ name, name ≠ key → c'.shared.published call name = c.shared.published call name :=
    fun name hne => published_kept hr hsucc hforeign hinit hs
      (by rw [heq, World.put, Function.update_of_ne hne])
  have hbefore : c.shared.published call key = none := World.published_free hfree
  cases hafter : c'.shared.published call key with
  | none =>
    -- the new object is not a marker of the call that created it
    refine .inl (funext fun name => ?_)
    by_cases hname : name = key
    · rw [hname, hafter, hbefore]
    · exact hother name hname
  | some bundle =>
    have hview : c'.shared.published call =
        Function.update (c.shared.published call) key (some bundle) := by
      funext name
      by_cases hname : name = key
      · subst hname
        rw [Function.update_self, hafter]
      · rw [Function.update_of_ne hname, hother name hname]
    refine .inr ⟨(key, bundle), ?_⟩
    rw [hview]
    exact .mk key bundle hbefore (complete_of_published hr' hsucc hforeign hinit hafter)

end Reached

/-- A reader sees what was published in the run, and nothing else. -/
theorem published_history (hr : (storeSystem srv).Reachable
      ⟨World.initial objects, fun i => (call i).run⟩ c) (hsucc : srv.SuccessOnlyToCreator)
    (hforeign : srv.HonestWriters)
    (hinit : ∀ key data metadata, objects key = some (data, metadata) → HonestTag data metadata) :
    ∃ entries, Registry.History (Complete call) (fun _ => none) entries
      (c.shared.published call) := by
  have hrefines : Refines (storeSystem srv).Step ⟨World.initial objects, fun i => (call i).run⟩
      (Registry.Publish (Complete call)) (fun c => c.shared.published call) :=
    fun c c' hr hs => published_step hr hsucc hforeign hinit hs
  obtain ⟨entries, hrun⟩ := hrefines.execution hr
  -- no object of the start was created by a call
  have hstart : (World.initial objects : World ι).published call = fun _ => none := by
    funext name
    simp only [World.published, World.initial]
    cases objects name <;> rfl
  simp only [hstart] at hrun
  exact ⟨entries, Registry.history hrun⟩

/-- Any number of concurrent calls refine the registry of complete bundles that writes every entry
    once; what a reader finds after a run is the history of what was published in it. -/
theorem storeBundle_refines_registry (hsucc : srv.SuccessOnlyToCreator)
    (hforeign : srv.HonestWriters)
    (hinit : ∀ key data metadata, objects key = some (data, metadata) → HonestTag data metadata) :
    Refines (storeSystem srv).Step ⟨World.initial objects, fun i => (call i).run⟩
      (Registry.Publish (Complete call)) (fun c => c.shared.published call) ∧
    ∀ c, (storeSystem srv).Reachable ⟨World.initial objects, fun i => (call i).run⟩ c →
      ∃ entries, Registry.History (Complete call) (fun _ => none) entries
        (c.shared.published call) :=
  ⟨fun _ _ hr hs => published_step hr hsucc hforeign hinit hs,
    fun _ hr => published_history hr hsucc hforeign hinit⟩

/-- Both sample calls that ran at once are in the history, each with its bundle. -/
theorem storeBundle_refines_registry_sample :
    ∃ (c : Config Bool httpSignature (World Bool) Exc BronzeBundleReceipt) (entries : _),
      (storeSystem Server.strict).Reachable ⟨World.initial fun _ => none,
        fun b => (sampleParty b).run⟩ c ∧
      Registry.History (Complete sampleParty) (fun _ => none) entries
        (c.shared.published sampleParty) ∧
      ∀ b, ∃ bundle, ((samplePartyPlan b).markerCreate.key, bundle) ∈ entries ∧
        bundle.publisher = b ∧
        bundle.marker = canonicalJson (samplePartyPlan b).completion.modelDump := by
  obtain ⟨c, hr, hcommitted⟩ := sample_interleaved
  obtain ⟨-, hhistory⟩ := @storeBundle_refines_registry Bool sampleParty _ Server.strict
    (fun _ => none) Server.strict_successOnlyToCreator (fun _ _ _ h => h.elim) (by simp)
  obtain ⟨entries, hentries⟩ := hhistory c hr
  refine ⟨c, entries, hr, hentries, fun b => ?_⟩
  have hhonest : (sampleParty b).HonestIn c.shared :=
    honestIn_of_writers hr (fun _ _ _ h => h.elim) (by simp) b
  obtain ⟨artifact, evidence, -, -, hbundle, -⟩ := published_of_creator hr
    Server.strict_successOnlyToCreator (sampleOf_keys (sampleRun b) csv none) hhonest rfl
    (hcommitted b).2 rfl
  have hlisted := (hentries.eq_some_iff _ _).mp hbundle
  simp only [reduceCtorEq, false_or] at hlisted
  exact ⟨_, hlisted, rfl, (samplePartyPlan b).markerCreate_honest.record_data (b, 2)⟩

/-- A marker key is one of a call's keys only as its marker. -/
theorem completionManifest_of_key {call call' : BundleCall} {keys keys' : BronzeObjectKeys}
    (hkeys : call.keys = .ok keys) (hkeys' : call'.keys = .ok keys')
    (h : keys.completionManifest ∈ keys'.toList) :
    keys.completionManifest = keys'.completionManifest := by
  obtain ⟨kind, hkind⟩ := BronzeObjectKeys.exists_kind h
  have hget : keys.get .completionManifest = keys'.get kind := hkind
  obtain rfl := buildBronzeObjectKeys_kind hkeys hkeys' hget
  exact hkind

/-- Two calls with one marker and one extension have the same keys, source and run. -/
theorem keys_of_completionManifest {call call' : BundleCall} {keys keys' : BronzeObjectKeys}
    (hkeys : call.keys = .ok keys) (hkeys' : call'.keys = .ok keys')
    (hextension : call.artifact.extension = call'.artifact.extension)
    (h : keys.completionManifest = keys'.completionManifest) :
    keys = keys' ∧ call.artifact.source = call'.artifact.source ∧
      call.artifact.ingestionRunId = call'.artifact.ingestionRunId := by
  obtain ⟨retrieved, -, rfl⟩ := buildBronzeObjectKeys_ok hkeys
  obtain ⟨retrieved', -, rfl⟩ := buildBronzeObjectKeys_ok hkeys'
  have hbundle := bundleKeys_inj h
  obtain ⟨-, hsegments, -⟩ :=
    @key_injective _ _ _ _ _ _ KeyKind.completionManifest KeyKind.completionManifest h
  obtain ⟨hsource, -, hrun⟩ := bundleSegments_injective hsegments
  exact ⟨by rw [hbundle, hextension], hsource, hrun⟩

/-- The size and the digest of some bytes are recorded in one way. -/
theorem Describes.unique {object object' : StoredObject} {data : Bytes} (h : Describes object data)
    (h' : Describes object' data) (huri : object.uri = object'.uri) : object = object' := by
  obtain ⟨uri, sizeBytes, digest⟩ := object
  obtain ⟨uri', sizeBytes', digest'⟩ := object'
  obtain rfl : uri = uri' := huri
  obtain ⟨hsize, hdigest⟩ := h
  obtain ⟨hsize', hdigest'⟩ := h'
  exact congrArg₂ (StoredObject.mk uri) (hsize.symm.trans hsize') (hdigest.symm.trans hdigest')

/-- Calls for one bundle bring artifacts of one kind. -/
def OneExtension (call : ι → BundleCall) : Prop :=
  ∀ i j keys keys', (call i).keys = .ok keys → (call j).keys = .ok keys' →
    keys.completionManifest = keys'.completionManifest →
    (call i).artifact.extension = (call j).artifact.extension

section Receipts

variable (hr : (storeSystem srv).Reachable ⟨World.initial objects, fun i => (call i).run⟩ c)
  (hsucc : srv.SuccessOnlyToCreator) (hother : srv.NoOtherWriter)
  (hextension : OneExtension call)

include hr hother

/-- The keys of a call that returned were free at the start, so what lies there was created by calls. -/
theorem created_of_returned {i : ι} {receipt : BronzeBundleReceipt} (hret : c.procs i = .ret receipt)
    {keys : BronzeObjectKeys} (hkeys : (call i).keys = .ok keys) {key : String}
    (hkey : key ∈ keys.toList) {o : ObjectRecord ι}
    (ho : c.shared.objects ((call i).objectKey key) = some o) :
    ∃ creator, o.creator = some creator := by
  have houtcome : (c.procs i).outcome = some (.ok receipt) := by rw [hret]; rfl
  cases bundleEnding_of_reachable hr houtcome with
  | committed plan hsec₁ hsec₂ hsec₃ hfree =>
    obtain rfl := plan.keys_unique hkeys
    cases hc : o.creator with
    | none =>
      have hstart : objects ((call i).objectKey key) = none :=
        Option.map_eq_none_iff.mp (hfree key hkey)
      exact absurd hstart (initial_of_no_creator hr hother _ o ho hc)
    | some creator => exact ⟨creator, rfl⟩

theorem honestIn_of_returned {i : ι} {receipt : BronzeBundleReceipt} (hret : c.procs i = .ret receipt) :
    (call i).HonestIn c.shared := by
  intro keys hkeys key hkey o ho
  obtain ⟨creator, hc⟩ := created_of_returned hr hother hret hkeys hkey ho
  exact created_honest hr ho hc

include hsucc hextension

/-- A receipt is for the bundle that is published under its marker, whoever published it. -/
theorem receipt_published {i : ι} {receipt : BronzeBundleReceipt} (hret : c.procs i = .ret receipt) :
    ∃ (plan : BundlePlan (call i)) (bundle : PublishedBundle ι), receipt = plan.receipt ∧
      c.shared.published call plan.markerCreate.key = some bundle ∧
      (call bundle.publisher).HonestIn c.shared ∧
      Describes plan.object bundle.artifact ∧ Describes plan.evidenceObject bundle.evidence := by
  have hhonest := honestIn_of_returned hr hother hret
  have ho : (c.procs i).outcome = some (.ok receipt) := by rw [hret]; rfl
  cases bundleEnding_of_reachable hr ho with
  | committed plan hsec₁ hsec₂ hsec₃ hfree =>
    obtain ⟨artifact, hartifact, hlen₁, hsha₁⟩ := described hr hsucc plan hhonest hsec₁ .artifact rfl
    obtain ⟨evidence, hevidence, hlen₂, hsha₂⟩ :=
      described hr hsucc plan hhonest hsec₂ .evidenceManifest rfl
    obtain ⟨marker, hmarker, -⟩ := described hr hsucc plan hhonest hsec₃ .completionManifest rfl
    refine ⟨plan, ?_⟩
    -- the marker was created by a call, as its marker, and so by one with the same keys
    obtain ⟨⟨j, n⟩, hc⟩ := created_of_returned hr hother hret plan.keys_eq
      (plan.keys.get_mem .completionManifest) hmarker
    obtain ⟨keys, hkeys, key, hkey, hname⟩ := key_of_creator hr hmarker hc
    obtain rfl : plan.keys.completionManifest = key := congrArg Prod.snd hname
    have hbucket : (call i).bucketName = (call j).bucketName := congrArg Prod.fst hname
    have hsame := completionManifest_of_key plan.keys_eq hkeys hkey
    obtain ⟨rfl, -, -⟩ := keys_of_completionManifest plan.keys_eq hkeys
      (hextension i j _ _ plan.keys_eq hkeys hsame) hsame
    have hobjectKey : ∀ key, (call j).objectKey key = (call i).objectKey key := fun key => by
      rw [BundleCall.objectKey, BundleCall.objectKey, hbucket]
    have hhonest' : (call j).HonestIn c.shared := by
      intro keys' hkeys' key' hkey' o' ho'
      obtain rfl := Except.ok.inj (hkeys.symm.trans hkeys')
      exact hhonest _ plan.keys_eq key' hkey' o' (hobjectKey key' ▸ ho')
    obtain ⟨artifact', evidence', hartifact', hevidence', hbundle, -⟩ :=
      published_of_creator hr hsucc hkeys hhonest' (hobjectKey _) hmarker hc
    rw [hobjectKey] at hartifact' hevidence'
    obtain rfl : artifact = artifact' := Option.some.inj (hartifact.symm.trans hartifact')
    obtain rfl : evidence = evidence' := Option.some.inj (hevidence.symm.trans hevidence')
    exact ⟨_, rfl, hbundle, hhonest', ⟨hlen₁, Sha256Hex.ext' hsha₁⟩, hlen₂, Sha256Hex.ext' hsha₂⟩

/-- All receipts for one marker are the same, and are for the bundle published there. -/
theorem receipts_agree :
    (∀ i receipt, c.procs i = .ret receipt → ∃ keys bundle, (call i).keys = .ok keys ∧
      c.shared.published call ((call i).objectKey keys.completionManifest) = some bundle ∧
      Describes receipt.artifact bundle.artifact ∧
      Describes receipt.evidenceManifest bundle.evidence) ∧
    ∀ i j receipt receipt', c.procs i = .ret receipt → c.procs j = .ret receipt' →
      (call i).bucketName = (call j).bucketName →
      receipt.completionManifestUri = receipt'.completionManifestUri → receipt = receipt' := by
  constructor
  · intro i receipt hret
    obtain ⟨plan, bundle, rfl, hbundle, -, hartifact, hevidence⟩ :=
      receipt_published hr hsucc hother hextension hret
    exact ⟨plan.keys, bundle, plan.keys_eq, hbundle, hartifact, hevidence⟩
  · intro i j receipt receipt' hret hret' hbucket huri
    obtain ⟨plan, bundle, rfl, hbundle, -, hartifact, hevidence⟩ :=
      receipt_published hr hsucc hother hextension hret
    obtain ⟨plan', bundle', rfl, hbundle', -, hartifact', hevidence'⟩ :=
      receipt_published hr hsucc hother hextension hret'
    have hobjectUri : ∀ key, (call i).store.uri key = (call j).store.uri key := fun key => by
      show objectUri (call i).bucketName key = objectUri (call j).bucketName key
      rw [hbucket]
    have hmarker : plan.keys.completionManifest = plan'.keys.completionManifest := by
      have heq : (call i).store.uri plan.keys.completionManifest =
        (call j).store.uri plan'.keys.completionManifest := huri
      rw [hobjectUri] at heq
      exact append_injective_left heq
    obtain ⟨hkeys, hsource, hrun⟩ := keys_of_completionManifest plan.keys_eq plan'.keys_eq
      (hextension i j _ _ plan.keys_eq plan'.keys_eq hmarker) hmarker
    -- so both are for what is published under this marker
    have hname : plan.markerCreate.key = plan'.markerCreate.key := by
      show ((call i).bucketName, plan.keys.completionManifest) =
        ((call j).bucketName, plan'.keys.completionManifest)
      rw [hbucket, hmarker]
    rw [hname, hbundle'] at hbundle
    obtain rfl := Option.some.inj hbundle
    have hobject : plan.object = plan'.object := hartifact.unique hartifact' (by
      show (call i).store.uri plan.keys.artifact = (call j).store.uri plan'.keys.artifact
      rw [hobjectUri, hkeys])
    have hmanifest : plan.evidenceObject = plan'.evidenceObject := hevidence.unique hevidence' (by
      show (call i).store.uri plan.keys.evidenceManifest =
        (call j).store.uri plan'.keys.evidenceManifest
      rw [hobjectUri, hkeys])
    simp only [BundlePlan.receipt, hsource, hrun, hobject, hmanifest, hobjectUri, hkeys]

end Receipts

/-- The sample call made twice at once, on an empty store: while the first has looked at its keys and
    created nothing the second commits; every PUT of the first then breaks off, and each is reconciled
    with the object it finds. -/
theorem sample_twice : ∃ c : Config Bool httpSignature (World Bool) Exc BronzeBundleReceipt,
    (storeSystem Server.strict).Reachable ⟨World.initial fun _ => none,
      fun _ => (sampleBundle csv none).run⟩ c ∧
    ∀ b, c.procs b = .ret (sampleBundlePlan csv).receipt := by
  obtain ⟨p, w₁, hreach, hsame, hrest⟩ := reaches_storeBundle Server.strict true
    (w := World.initial fun _ => none) csv_ready fun _ _ => rfl
  obtain ⟨w₂, hrun, -⟩ := runs_storeBundle_committed (i := false) (w := w₁) Server.strict_grants
    csv_ready fun _ _ => congrFun hsame.1 _
  have hreach₁ : (storeSystem Server.strict).Reachable
      ⟨World.initial fun _ => none, fun _ => (sampleBundle csv none).run⟩
      ⟨w₁, Function.update (fun _ => (sampleBundle csv none).run) true p⟩ :=
    hreach.reachable rfl .refl
  have hreach₂ := hrun.reachable (by simp) hreach₁
  -- so all three objects are there
  have hheld : ∀ create ∈ [(sampleBundlePlan csv).create, (sampleBundlePlan csv).evidenceCreate,
      (sampleBundlePlan csv).markerCreate], w₂.Holds create.key create.length create.sha256 := by
    have hend := bundleEnding_of_reachable hreach₂ (i := false)
      (r := .ok (sampleBundlePlan csv).receipt) (by dsimp only; rw [Function.update_self]; rfl)
    have htruth := truthfulTo_reachable hreach₂ false
    generalize hresult : (Except.ok (sampleBundlePlan csv).receipt :
      Except Exc BronzeBundleReceipt) = r at hend
    cases hend with
    | committed plan hsec₁ hsec₂ hsec₃ =>
      obtain rfl := plan.eq (sampleBundlePlan csv)
      have hsucc := Server.strict_successOnlyToCreator
      simp only [List.forall_mem_cons, List.not_mem_nil, false_implies, implies_true, and_true]
      exact ⟨hsec₁.holds hsucc htruth, hsec₂.holds hsucc htruth, hsec₃.holds hsucc htruth⟩
    | unmarked => cases hresult
    | marker => cases hresult
  simp only [List.forall_mem_cons, List.not_mem_nil, false_implies, implies_true, and_true] at hheld
  obtain ⟨hartifact, hevidence, hmarker⟩ := hheld
  obtain ⟨w₃, hrun₁, hsame₁⟩ := runs_create_found Server.strict true sampleTimeout csv_ready.artifact
    hartifact
  obtain ⟨w₄, hrun₂, hsame₂⟩ := runs_create_found Server.strict true (w := w₃) sampleTimeout
    csv_ready.evidence (by rw [World.Holds, hsame₁]; exact hevidence)
  obtain ⟨w₅, hrun₃, -⟩ := runs_create_found Server.strict true (w := w₄) sampleTimeout
    csv_ready.marker (by rw [World.Holds, hsame₂, hsame₁]; exact hmarker)
  let procs (_ : Bool) := (sampleBundle csv none).run
  have hreach : (storeSystem Server.strict).Reaches true (procs true) _ _ _ := hreach
  obtain ⟨procs', hreached, hfirst, hsecond⟩ :=
    hreach.interleaved (by decide) hrun (hrest _ _ _ _ _ hrun₁ hrun₂ hrun₃)
  refine ⟨⟨w₅, procs'⟩, hreached, fun b => ?_⟩
  cases b with
  | true => exact hfirst
  | false => exact hsecond

/-- Both calls have the same receipt, for the bundle that is published. -/
theorem receipts_agree_sample :
    ∃ (c : Config Bool httpSignature (World Bool) Exc BronzeBundleReceipt) (receipt : Bool → _)
      (bundle : _),
      (storeSystem Server.strict).Reachable ⟨World.initial fun _ => none,
        fun _ => (sampleBundle csv none).run⟩ c ∧
      (∀ b, c.procs b = .ret (receipt b)) ∧ receipt true = receipt false ∧
      c.shared.published (fun _ => sampleBundle csv none)
        ("lake", (sampleKeys csv).completionManifest) = some bundle ∧
      bundle.artifact.length = 4 := by
  obtain ⟨c, hr, hret⟩ := sample_twice
  have hextension : OneExtension fun _ : Bool => sampleBundle csv none := fun _ _ _ _ _ _ _ => rfl
  obtain ⟨hpublished, hsame⟩ := receipts_agree hr Server.strict_successOnlyToCreator
    Server.strict_noOtherWriter hextension
  obtain ⟨keys, bundle, hkeys, hbundle, hartifact, -⟩ := hpublished true _ (hret true)
  obtain rfl := Except.ok.inj (hkeys.symm.trans (sample_keys csv none))
  exact ⟨c, fun _ => (sampleBundlePlan csv).receipt, bundle, hr, hret,
    hsame true false _ _ (hret true) (hret false) rfl rfl, hbundle, hartifact.1⟩

end EvidenceCartographer.Infrastructure
