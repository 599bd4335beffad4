import EvidenceCartographer.Infrastructure.StoredBundle

/-! The ceiling of a single PUT, for the three payloads of a bundle.

    Each payload is measured in its own way: the artifact by the sum of its chunks, the evidence by the
    position of its spool and the next line, the marker by the length of its bytes, and the client
    measures all three again. Staging that meets no other failure refuses exactly the first payload
    that is longer than the ceiling, and has stored exactly those before it. -/

namespace EvidenceCartographer.Infrastructure

open Python Domain Application Concurrency MinioConditionalObjectClient

/-- The payloads that `store_bundle` stores before one. -/
def KeyKind.before : KeyKind → List KeyKind
  | .artifact => []
  | .evidenceManifest => [.artifact]
  | .completionManifest => [.artifact, .evidenceManifest]

theorem KeyKind.before_total (kind kind' : KeyKind) :
    kind = kind' ∨ kind ∈ kind'.before ∨ kind' ∈ kind.before := by
  cases kind <;> cases kind' <;> simp [before]

namespace BundleCall

variable (call : BundleCall)

def runUnder (ceiling clientCeiling : Nat) : Program httpSignature Exc BronzeBundleReceipt :=
  (call.storeUnder ceiling clientCeiling).storeBundle call.staging call.artifact call.evidence
    call.contractMessages

theorem runUnder_max : call.runUnder maxSinglePutSizeBytes maxSinglePutSizeBytes = call.run := rfl

/-- The three payloads. -/
def payload (keys : BronzeObjectKeys) : KeyKind → Bytes
  | .artifact => chunksRead call.staging.file.reads
  | .evidenceManifest => evidenceBytes call.evidence.items
  | .completionManifest => canonicalJson (call.store.completion call.staging call.artifact
      call.evidence call.contractMessages keys).modelDump

def contentType : KeyKind → String
  | .artifact => call.artifact.mediaType
  | .evidenceManifest => "application/x-ndjson"
  | .completionManifest => "application/json"

/-- The PUT of a payload. -/
def payloadRequest (keys : BronzeObjectKeys) (kind : KeyKind) : PutRequest :=
  putRequest call.bucketName (keys.get kind) (.ofBytes (call.payload keys kind))
    (call.payload keys kind).length (sha256 (call.payload keys kind)).text (call.contentType kind)

/-- The payload fits, and so do those before it. -/
def Fits (ceiling : Nat) (keys : BronzeObjectKeys) (kind : KeyKind) : Prop :=
  ∀ k ∈ kind :: kind.before, (call.payload keys k).length ≤ ceiling

/-- Nothing but a ceiling stops the staging of the artifact and of the evidence. -/
structure Unhindered : Prop where
  isFile : call.staging.file.isFile = true
  artifactSpool : call.staging.artifactSpool = .none
  read_to_end : ReadToEnd call.staging.file.reads
  checksum : ∀ expected, call.artifact.expectedSha256 = some expected →
    sha256 (chunksRead call.staging.file.reads) = expected
  evidenceSpool : call.staging.evidenceSpool = .none
  ending : call.evidence.ending = none
  coherent : ∀ item ∈ call.evidence.items, Coherent call.artifact item

end BundleCall

/-- A failure of the object store, or a collision there. -/
def StoreFailure : Exc → Prop
  | .objectAlreadyExistsError _ => True
  | .objectStoreError _ => True
  | _ => False

theorem StoreFailure.not_isOSError {e : Exc} (h : StoreFailure e) : e.isOSError = false := by
  cases e <;> first | rfl | exact h.elim

theorem StoreFailure.evidenceError {e : Exc} (h : StoreFailure e) : evidenceError e = e := by
  cases e <;> first | rfl | exact h.elim

variable {ι : Type}

/-- Call `i` has created what this request is for, or has found it at its key. -/
def World.Wrote (w : World ι) (i : ι) (r : PutRequest) : Prop :=
  (∃ n p answer, w.puts.entry i n = some p ∧ p.request = r ∧ p.answer = some answer ∧
    Succeeded answer) ∨ w.Holds r.key r.contentLength (sha256 r.body).text

theorem World.Wrote.since {w w' : World ι} {i : ι} {r : PutRequest} (hs : Since i w w')
    (h : w.Wrote i r) : w'.Wrote i r := by
  rcases h with ⟨n, p, answer, hp, hreq, hans, hsucc⟩ | hholds
  · obtain ⟨p', hp', hreq', hans'⟩ := hs.puts n p hp
    exact .inl ⟨n, p', answer, hp', hreq'.trans hreq, hans' answer hans, hsucc⟩
  · exact .inr (hholds.since hs)

/-- The invariant of a call: it has sent payloads that fit, and none whose turn was not reached. -/
def SentFitting (call : BundleCall) (ceiling : Nat) (keys : BronzeObjectKeys) (i : ι) (w : World ι) :
    Prop :=
  w.AllSent i fun r => ∃ kind, r = call.payloadRequest keys kind ∧ call.Fits ceiling keys kind

theorem SentFitting.keptQuietly (call : BundleCall) (ceiling : Nat) (keys : BronzeObjectKeys)
    (i : ι) : KeptQuietly i (SentFitting call ceiling keys i) :=
  keptQuietly_allSent fun _ _ _ _ h => h

/-- What may stop a call beside a ceiling: the server has answered one of its PUTs otherwise than with
    success, one of its keys holds an object it did not create, or a HEAD request may fail. -/
inductive Obstructed (srv : Server) (call : BundleCall) (keys : BronzeObjectKeys) (i : ι)
    (w : World ι) : Prop where
  | put (n answer) : w.Answered i n answer → ¬ Succeeded answer → Obstructed srv call keys i w
  | occupied (key) : key ∈ keys.toList → w.HoldsForeign i (call.objectKey key) →
      Obstructed srv call keys i w
  | head (e) : srv.statFails e → Obstructed srv call keys i w

theorem Obstructed.since {srv : Server} {call : BundleCall} {keys : BronzeObjectKeys} {i : ι}
    {w w' : World ι} (hs : Since i w w') (h : Obstructed srv call keys i w) :
    Obstructed srv call keys i w' := by
  cases h with
  | put n answer hanswered hfail =>
    obtain ⟨p, hp, hans⟩ := hanswered
    obtain ⟨p', hp', -, hkept⟩ := hs.puts n p hp
    exact .put n answer ⟨p', hp', hkept answer hans⟩ hfail
  | occupied key hk hforeign => exact .occupied key hk (hforeign.objects hs.objects)
  | head e hfail => exact .head e hfail

/-- How a call that nothing but ceilings and the object store stopped can have ended. -/
inductive CeilingEnding (srv : Server) (call : BundleCall) (ceiling : Nat) (keys : BronzeObjectKeys)
    (i : ι) (w : World ι) : Except Exc BronzeBundleReceipt → Prop where
  | failed (e) : StoreFailure e → Obstructed srv call keys i w →
      CeilingEnding srv call ceiling keys i w (.error e)
  | tooLarge (kind size) : ceiling < (call.payload keys kind).length → ceiling < size →
      (∀ k ∈ kind.before, (call.payload keys k).length ≤ ceiling ∧
        w.Wrote i (call.payloadRequest keys k)) →
      CeilingEnding srv call ceiling keys i w
        (.error (.singlePutSizeLimitError (call.store.uri (keys.get kind)) size ceiling))
  | stored : (∀ kind, (call.payload keys kind).length ≤ ceiling ∧
        w.Wrote i (call.payloadRequest keys kind)) →
      CeilingEnding srv call ceiling keys i w
        (.ok (call.store.receipt call.staging call.artifact call.evidence keys))

theorem CeilingEnding.since {srv : Server} {call : BundleCall} {ceiling : Nat}
    {keys : BronzeObjectKeys} {i : ι} {w w' : World ι} {r : Except Exc BronzeBundleReceipt}
    (hs : Since i w w') (h : CeilingEnding srv call ceiling keys i w r) :
    CeilingEnding srv call ceiling keys i w' r := by
  cases h with
  | failed e he hcause => exact .failed e he (hcause.since hs)
  | tooLarge kind size hlarge hsize hbefore =>
    exact .tooLarge kind size hlarge hsize fun k hk => ⟨(hbefore k hk).1, (hbefore k hk).2.since hs⟩
  | stored hall => exact .stored fun kind => ⟨(hall kind).1, (hall kind).2.since hs⟩

/-- The call has ended as the ceiling decides: it was refused exactly if a payload is too large, for
    the first such payload and with those before it written and nothing else sent; and a call whose
    payloads all fit has written them and returned. -/
structure CeilingExact (call : BundleCall) (ceiling : Nat) (keys : BronzeObjectKeys) (i : ι)
    (w : World ι) (r : Except Exc BronzeBundleReceipt) : Prop where
  refused_iff : (∃ uri size, r = .error (.singlePutSizeLimitError uri size ceiling)) ↔
    ∃ kind, ceiling < (call.payload keys kind).length
  refused : ∀ kind, ceiling < (call.payload keys kind).length →
    (∀ k ∈ kind.before, (call.payload keys k).length ≤ ceiling) →
    (∃ size, ceiling < size ∧
      r = .error (.singlePutSizeLimitError (call.store.uri (keys.get kind)) size ceiling)) ∧
    (∀ k ∈ kind.before, w.Wrote i (call.payloadRequest keys k)) ∧
    ∀ n p, w.puts.entry i n = some p → ∃ k ∈ kind.before, p.request = call.payloadRequest keys k
  accepted : (∀ kind, (call.payload keys kind).length ≤ ceiling) →
    r = .ok (call.store.receipt call.staging call.artifact call.evidence keys) ∧
    ∀ kind, w.Wrote i (call.payloadRequest keys kind)

/-- An ending that is no failure of the object store is the one that the ceiling decides. -/
theorem CeilingEnding.exact {srv : Server} {call : BundleCall} {ceiling : Nat}
    {keys : BronzeObjectKeys} {i : ι} {w : World ι} {r : Except Exc BronzeBundleReceipt}
    (hsent : SentFitting call ceiling keys i w) (h : CeilingEnding srv call ceiling keys i w r) :
    CeilingExact call ceiling keys i w r ∨
      Obstructed srv call keys i w ∧ ∃ e, r = .error e ∧ StoreFailure e := by
  cases h with
  | failed e he hcause => exact .inr ⟨hcause, e, rfl, he⟩
  | tooLarge kind size hlarge hsize hbefore =>
    refine .inl ⟨⟨fun _ => ⟨kind, hlarge⟩, fun _ => ⟨_, size, rfl⟩⟩, fun kind' hlarge' hbefore' => ?_,
      fun hall => absurd (hall kind) (Nat.not_le.mpr hlarge)⟩
    rcases kind.before_total kind' with rfl | hmem | hmem
    · refine ⟨⟨size, hsize, rfl⟩, fun k hk => (hbefore k hk).2, fun n p hp => ?_⟩
      -- what was sent fits, so its turn came before that of the payload that does not
      obtain ⟨k, hreq, hfits⟩ := hsent n p hp
      rcases k.before_total kind with rfl | hk | hk
      · exact absurd (hfits k List.mem_cons_self) (Nat.not_le.mpr hlarge)
      · exact ⟨k, hk, hreq⟩
      · exact absurd (hfits kind (List.mem_cons_of_mem _ hk)) (Nat.not_le.mpr hlarge)
    · exact absurd (hbefore' kind hmem) (Nat.not_le.mpr hlarge)
    · exact absurd (hbefore kind' hmem).1 (Nat.not_le.mpr hlarge')
  | stored hall =>
    refine .inl ⟨⟨?_, ?_⟩, fun kind hlarge _ => ?_, fun _ => ⟨rfl, fun kind => (hall kind).2⟩⟩
    · rintro ⟨uri, size, h⟩
      cases h
    · rintro ⟨kind, hlarge⟩
      exact absurd (hall kind).1 (Nat.not_le.mpr hlarge)
    · exact absurd (hall kind).1 (Nat.not_le.mpr hlarge)

section Client

variable [DecidableEq ι] {srv : Server} {i : ι} {w : World ι} {call : BundleCall} {ceiling : Nat}
  {keys : BronzeObjectKeys}

/-- The PUT of a payload that fits. -/
theorem safe_putPayload (kind : KeyKind) (hfits : call.Fits ceiling keys kind)
    (hw : SentFitting call ceiling keys i w) :
    (storeSystem srv).Safe i (SentFitting call ceiling keys i)
      ((call.storeUnder ceiling ceiling).putIfAbsent (keys.get kind)
        (.ofBytes (call.payload keys kind)) (call.payload keys kind).length
        (sha256 (call.payload keys kind)).text (call.contentType kind))
      (fun r w' => SentFitting call ceiling keys i w' ∧ Since i w w' ∧
        (r = .ok () → w'.Wrote i (call.payloadRequest keys kind)) ∧
        ∀ e, r = .error e → StoreFailure e ∧ Obstructed srv call keys i w') w := by
  have hle : ¬ (call.storeUnder ceiling ceiling).ceiling < (call.payload keys kind).length :=
    Nat.not_lt.mpr (hfits kind List.mem_cons_self)
  unfold MinioBronzeArtifactStore.putIfAbsent
  rw [if_neg hle]
  refine .handle ((safe_putObjectIfAbsent ceiling call.bucketName (keys.get kind)
    (.ofBytes (call.payload keys kind)) (call.payload keys kind).length
    (sha256 (call.payload keys kind)).text (call.contentType kind)
    (SentFitting.keptQuietly call ceiling keys i)
    (keptSending_allSent (P := fun _ r => ∃ kind, r = call.payloadRequest keys kind ∧
      call.Fits ceiling keys kind) (fun _ _ _ _ h => h) ⟨kind, rfl, hfits⟩) hw).mono ?_)
  rintro (e | ⟨⟨⟩⟩) w' ⟨hw', hend⟩
  · refine ⟨hw', hend.since, by simp, ?_⟩
    rintro _ ⟨⟩
    have hcause : Obstructed srv call keys i w' := by
      rcases hend.blamed e rfl with hlt | ⟨n, answer, -, hanswered, hfail⟩
      · exact absurd hlt hle
      · exact .put n answer hanswered hfail
    refine ⟨?_, hcause⟩
    have hending := hend.ending
    generalize hresult : (Except.error e : Except Exc Unit) = r at hending
    cases hending with
    | tooLarge uri hlt => exact absurd hlt hle
    | created | found => cases hresult
    | occupied | conflict => cases hresult; trivial
    | rejected | unseen | undecoded => cases hresult; trivial
  · refine ⟨hw', hend.since, fun _ => ?_, by simp⟩
    have hending := hend.ending
    generalize hresult : (Except.ok () : Except Exc Unit) = r at hending
    cases hending with
    | created n p answer _ hp hreq hans hs _ => exact .inl ⟨n, p, answer, hp, hreq, hans, hs⟩
    | found o ho hm _ _ => exact .inr ⟨o, ho, hm⟩
    | _ => cases hresult

/-- The PUT of a payload that does not fit: nothing is sent. -/
theorem safe_putPayload_tooLarge (kind : KeyKind)
    (hlarge : ceiling < (call.payload keys kind).length)
    (hw : SentFitting call ceiling keys i w) :
    (storeSystem srv).Safe i (SentFitting call ceiling keys i)
      ((call.storeUnder ceiling ceiling).putIfAbsent (keys.get kind)
        (.ofBytes (call.payload keys kind)) (call.payload keys kind).length
        (sha256 (call.payload keys kind)).text (call.contentType kind))
      (fun r w' => SentFitting call ceiling keys i w' ∧ w' = w ∧
        r = .error (.singlePutSizeLimitError (call.store.uri (keys.get kind))
          (call.payload keys kind).length ceiling)) w := by
  have hlt : (call.storeUnder ceiling ceiling).ceiling < (call.payload keys kind).length := hlarge
  rw [MinioBronzeArtifactStore.putIfAbsent, if_pos hlt]
  exact ⟨hw, rfl, rfl⟩

/-- `_assert_bundle_absent` fails in no other way, before the call has sent anything. -/
theorem safe_assertBundleAbsent (hw : SentFitting call ceiling keys i w) (hsize : w.puts.size i = 0) :
    (storeSystem srv).Safe i (SentFitting call ceiling keys i)
      ((call.storeUnder ceiling ceiling).assertBundleAbsent keys)
      (fun r w' => SentFitting call ceiling keys i w' ∧
        ∀ e, r = .error e → StoreFailure e ∧ Obstructed srv call keys i w') w := by
  have hsafe : (storeSystem srv).Safe i _ (call.store.assertAbsent keys.toList) _ w :=
    safe_assertAbsent (SentFitting.keptQuietly call ceiling keys i) keys.toList hw
  refine System.Safe.mono hsafe ?_
  rintro r w' ⟨hw', hquiet, -, hrefused⟩
  refine ⟨hw', fun e he => ?_⟩
  have hfresh : w'.puts.size i = 0 := hquiet.size.trans hsize
  cases hrefused e he with
  | occupied key o _ hk ho => exact ⟨trivial, .occupied key hk (.of_fresh hfresh ho)⟩
  | undecoded key o _ hk ho => exact ⟨trivial, .occupied key hk (.of_fresh hfresh ho)⟩
  | failed key exc _ hfail => exact ⟨trivial, .head exc hfail⟩

variable (hcall : call.Unhindered)

include hcall

omit [DecidableEq ι] in
/-- The first block, for an artifact that does not fit: it sends nothing at all. -/
theorem storeArtifact_tooLarge (target : BronzeBundleTarget)
    (hlarge : ceiling < (call.payload keys .artifact).length) : ∃ size, ceiling < size ∧
      ∀ clientCeiling, (call.storeUnder ceiling clientCeiling).storeArtifact call.staging
          call.artifact keys target =
        .raise (.singlePutSizeLimitError target.artifactUri size ceiling) := by
  obtain ⟨size, hsize, hsnap⟩ := snapshotArtifact_tooLarge call.artifact
    target.artifactUri hcall.read_to_end (by rw [hcall.artifactSpool]; exact fun _ => rfl) hlarge
  refine ⟨size, hsize, fun clientCeiling => ?_⟩
  rw [MinioBronzeArtifactStore.storeArtifact, withSpool, hcall.artifactSpool]
  simp only [SpoolFaults.none]
  rw [show (call.storeUnder ceiling clientCeiling).ceiling = ceiling from rfl, hsnap]
  rfl

/-- The first block, for an artifact that fits. -/
theorem safe_storeArtifact_fits (target : BronzeBundleTarget)
    (hfits : (call.payload keys .artifact).length ≤ ceiling)
    (hw : SentFitting call ceiling keys i w) (hsize : w.puts.size i = 0) :
    (storeSystem srv).Safe i (SentFitting call ceiling keys i)
      ((call.storeUnder ceiling ceiling).storeArtifact call.staging call.artifact keys target)
      (fun r w' => SentFitting call ceiling keys i w' ∧
        (∀ object, r = .ok object → object = storedObject target.artifactUri
          (call.payload keys .artifact) ∧ w'.Wrote i (call.payloadRequest keys .artifact)) ∧
        ∀ e, r = .error e → StoreFailure e ∧ Obstructed srv call keys i w') w := by
  have hsnap : snapshotArtifact (call.storeUnder ceiling ceiling).ceiling call.artifact
      target.artifactUri call.staging = .ok (.ofBytes (call.payload keys .artifact)) :=
    snapshotArtifact_complete hcall.read_to_end (by rw [hcall.artifactSpool]; exact fun _ => rfl) hfits
      hcall.checksum
  have hfits₁ : call.Fits ceiling keys .artifact := by
    intro k hk
    rw [List.mem_singleton.mp hk]
    exact hfits
  refine MinioBronzeArtifactStore.safe_storeArtifact_of (R := fun e w' =>
    SentFitting call ceiling keys i w' ∧ StoreFailure e ∧ Obstructed srv call keys i w') ?_
    (fun exc hspool => ?_)
    (fun exc hfailed => ?_) fun snapshot hok => ?_
  · -- a failure of the object store passes the handler unchanged
    rintro exc w' ⟨hw', hexc⟩
    refine ⟨fun hos => ?_, fun _ => ⟨hw', by simp, ?_⟩⟩
    · rw [hexc.1.not_isOSError] at hos; cases hos
    · rintro _ ⟨⟩
      exact hexc
  · rw [hcall.artifactSpool] at hspool; cases hspool
  · rw [hsnap] at hfailed; cases hfailed
  · rw [hsnap] at hok; cases hok
    refine (safe_assertBundleAbsent hw hsize).mono ?_
    rintro r w₁ ⟨hw₁, herr₁⟩
    refine ⟨fun exc he => ⟨hw₁, herr₁ exc he⟩, fun _ => ⟨fun exc hrewind => ?_, ?_⟩⟩
    · rw [hcall.artifactSpool] at hrewind; cases hrewind
    refine System.Safe.mono (safe_putPayload .artifact hfits₁ hw₁) ?_
    rintro r w₂ ⟨hw₂, -, hwrote, herr₂⟩
    refine ⟨fun exc he => ⟨hw₂, herr₂ exc he⟩, fun hok₂ => ⟨hw₂, ?_, by simp⟩⟩
    rintro _ ⟨⟩
    exact ⟨rfl, hwrote hok₂⟩

omit [DecidableEq ι] in
/-- `_write_evidence`, for evidence that does not fit: it sends nothing. -/
theorem writeEvidence_tooLarge (keys : BronzeObjectKeys)
    (hlarge : ceiling < (call.payload keys .evidenceManifest).length) : ∃ size, ceiling < size ∧
      ∀ clientCeiling, (call.storeUnder ceiling clientCeiling).writeEvidence call.staging
        call.artifact call.evidence keys.evidenceManifest = .raise (.singlePutSizeLimitError
          (call.store.uri keys.evidenceManifest) size ceiling) := by
  obtain ⟨before, item, after, -, -, hsize, hspool, -⟩ := spoolEvidence_tooLarge
    (call.store.uri keys.evidenceManifest) .none hcall.coherent (fun _ => rfl) hlarge
  refine ⟨_, hsize, fun clientCeiling => ?_⟩
  have hspool : spoolEvidence (call.storeUnder ceiling clientCeiling).ceiling call.artifact
      ((call.storeUnder ceiling clientCeiling).uri keys.evidenceManifest) .none call.evidence = _ :=
    hspool
  rw [MinioBronzeArtifactStore.writeEvidence, withSpool, hcall.evidenceSpool]
  dsimp only [SpoolFaults.none] at hspool ⊢
  rw [hspool]
  rfl

/-- `_write_evidence`, for evidence that fits. -/
theorem safe_writeEvidence_fits (hfits : call.Fits ceiling keys .evidenceManifest)
    (hw : SentFitting call ceiling keys i w) :
    (storeSystem srv).Safe i (SentFitting call ceiling keys i)
      ((call.storeUnder ceiling ceiling).writeEvidence call.staging call.artifact call.evidence
        keys.evidenceManifest)
      (fun r w' => SentFitting call ceiling keys i w' ∧ Since i w w' ∧
        (∀ x, r = .ok x → x = (call.store.evidenceObject call.evidence keys,
            call.evidence.items.length, outcomeCount call.evidence.items) ∧
          w'.Wrote i (call.payloadRequest keys .evidenceManifest)) ∧
        ∀ e, r = .error e → StoreFailure e ∧ Obstructed srv call keys i w') w := by
  have hspool : spoolEvidence (call.storeUnder ceiling ceiling).ceiling call.artifact
      ((call.storeUnder ceiling ceiling).uri keys.evidenceManifest) .none call.evidence =
        .ok (.ofItems call.evidence.items) :=
    spoolEvidence_complete hcall.ending hcall.coherent (fun _ => rfl)
      (hfits .evidenceManifest List.mem_cons_self)
  refine MinioBronzeArtifactStore.safe_writeEvidence_of (R := fun e w' =>
    SentFitting call ceiling keys i w' ∧ Since i w w' ∧ StoreFailure e ∧
      Obstructed srv call keys i w') ?_ (fun exc hcreate => ?_) (fun exc hfailed => ?_)
    fun written hok => ?_
  · rintro exc w' ⟨hw', hs, hexc⟩
    refine ⟨hw', hs, by simp, ?_⟩
    rintro _ ⟨⟩
    rw [hexc.1.evidenceError]
    exact hexc
  · rw [hcall.evidenceSpool] at hcreate; cases hcreate
  · rw [hcall.evidenceSpool, hspool] at hfailed; cases hfailed
  · rw [hcall.evidenceSpool, hspool] at hok; cases hok
    refine ⟨fun exc hrewind => ?_, ?_⟩
    · rw [hcall.evidenceSpool] at hrewind; cases hrewind
    refine System.Safe.mono (safe_putPayload .evidenceManifest hfits hw) ?_
    rintro r w' ⟨hw', hs, hwrote, herr⟩
    refine ⟨fun exc he => ⟨hw', hs, herr exc he⟩, fun hok₂ => ⟨hw', hs, ?_, by simp⟩⟩
    rintro _ ⟨⟩
    exact ⟨rfl, hwrote hok₂⟩

/-- One whole call: the first payload that does not fit ends it. -/
theorem safe_storeBundle_ceiling (hkeys : call.keys = .ok keys) (hw : w.puts.size i = 0) :
    (storeSystem srv).Safe i (SentFitting call ceiling keys i) (call.runUnder ceiling ceiling)
      (fun r w' => SentFitting call ceiling keys i w' ∧
        CeilingEnding srv call ceiling keys i w' r) w := by
  have hw₀ : SentFitting call ceiling keys i w := fun n p hp =>
    absurd (Log.lt_size hp) (by rw [hw]; exact Nat.not_lt_zero n)
  have hkeys : buildBronzeObjectKeys call.artifact
      (call.storeUnder ceiling ceiling).bronzePrefix = .ok keys := hkeys
  unfold BundleCall.runUnder MinioBronzeArtifactStore.storeBundle
  rw [if_pos hcall.isFile, hkeys, (call.storeUnder ceiling ceiling).targetFor_eq hkeys]
  refine .bind (System.safe_ofExcept.mpr (.bind (System.safe_ofExcept.mpr (.bind ?_))))
  -- the artifact
  rcases Nat.lt_or_ge ceiling (call.payload keys .artifact).length with hlarge | hartifact
  · obtain ⟨size, hsize, heq⟩ := storeArtifact_tooLarge hcall ⟨_, _, _⟩ hlarge
    rw [heq]
    exact ⟨hw₀, .tooLarge .artifact size hlarge hsize nofun⟩
  refine (safe_storeArtifact_fits hcall _ hartifact hw₀ hw).mono ?_
  rintro (e | object) w₁ ⟨hw₁, hok₁, herr₁⟩
  · exact ⟨hw₁, .failed e (herr₁ e rfl).1 (herr₁ e rfl).2⟩
  obtain ⟨rfl, hwrote₁⟩ := hok₁ object rfl
  -- the evidence
  refine .bind ?_
  rcases Nat.lt_or_ge ceiling (call.payload keys .evidenceManifest).length with hlarge | hevidence
  · obtain ⟨size, hsize, heq⟩ := writeEvidence_tooLarge hcall keys hlarge
    rw [heq]
    refine ⟨hw₁, .tooLarge .evidenceManifest size hlarge hsize fun k hk => ?_⟩
    rw [List.mem_singleton.mp hk]
    exact ⟨hartifact, hwrote₁⟩
  have hfits : call.Fits ceiling keys .evidenceManifest := by
    simp only [BundleCall.Fits, KeyKind.before, List.forall_mem_cons]
    exact ⟨hevidence, hartifact, nofun⟩
  refine (safe_writeEvidence_fits hcall hfits hw₁).mono ?_
  rintro (e | x) w₂ ⟨hw₂, hs₂, hok₂, herr₂⟩
  · exact ⟨hw₂, .failed e (herr₂ e rfl).1 (herr₂ e rfl).2⟩
  obtain ⟨rfl, hwrote₂⟩ := hok₂ x rfl
  have hwrote₁ := hwrote₁.since hs₂
  -- the marker
  refine .bind ?_
  rcases Nat.lt_or_ge ceiling (call.payload keys .completionManifest).length with hlarge | hmarker
  · refine (safe_putPayload_tooLarge .completionManifest hlarge hw₂).mono ?_
    rintro _ w₃ ⟨hw₂, rfl, rfl⟩
    refine ⟨hw₂, .tooLarge .completionManifest _ hlarge hlarge ?_⟩
    simp only [KeyKind.before, List.forall_mem_cons]
    exact ⟨⟨hartifact, hwrote₁⟩, ⟨hevidence, hwrote₂⟩, nofun⟩
  have hfits : call.Fits ceiling keys .completionManifest := by
    simp only [BundleCall.Fits, KeyKind.before, List.forall_mem_cons]
    exact ⟨hmarker, hartifact, hevidence, nofun⟩
  refine (safe_putPayload .completionManifest hfits hw₂).mono ?_
  rintro (e | ⟨⟨⟩⟩) w₃ ⟨hw₃, hs₃, hwrote₃, herr₃⟩
  · exact ⟨hw₃, .failed e (herr₃ e rfl).1 (herr₃ e rfl).2⟩
  refine ⟨hw₃, .stored fun kind => ?_⟩
  cases kind
  · exact ⟨hartifact, hwrote₁.since hs₃⟩
  · exact ⟨hevidence, hwrote₂.since hs₃⟩
  · exact ⟨hmarker, hwrote₃ rfl⟩

end Client

/-- The client's own check is never the one that refuses: with a larger ceiling in the client, the
    call is the same program. -/
theorem BundleCall.runUnder_client (call : BundleCall) {ceiling clientCeiling : Nat}
    (hle : ceiling ≤ clientCeiling) :
    call.runUnder ceiling clientCeiling = call.runUnder ceiling ceiling := by
  have hput : ∀ key data length sha256 contentType,
      (call.storeUnder ceiling clientCeiling).putIfAbsent key data length sha256 contentType =
        (call.storeUnder ceiling ceiling).putIfAbsent key data length sha256 contentType := by
    intro key data length sha256 contentType
    by_cases hlt : ceiling < length
    · have hraise : ∀ client, (call.storeUnder ceiling client).putIfAbsent key data length sha256
          contentType = .raise (.singlePutSizeLimitError (call.store.uri key) length ceiling) :=
        fun _ => if_pos hlt
      rw [hraise, hraise]
    · have hclient : ¬ clientCeiling < length := by omega
      simp only [MinioBronzeArtifactStore.putIfAbsent, storeUnder, minioConditionalObjectClient,
        putObjectIfAbsent, if_neg hlt, if_neg hclient]
      rfl
  simp only [runUnder, MinioBronzeArtifactStore.storeBundle, MinioBronzeArtifactStore.storeArtifact,
    MinioBronzeArtifactStore.writeEvidence, hput]
  rfl

variable [DecidableEq ι] {srv : Server} {call : ι → BundleCall} {ceiling : Nat}
  {objects : ObjectKey → Option (Bytes × List (String × String))}
  {c : Config ι httpSignature (World ι) Exc BronzeBundleReceipt}

/-- In every run of calls that staging faults do not disturb, whatever the ceiling: what was sent
    fits, and so does what comes before it; a call that the server did not obstruct has ended as the
    ceiling decides, and so has any other that does not report a failure of the object store; the
    evidence is read up to the first line that does not fit; and the check in the client changes
    nothing. -/
theorem storeBundle_ceiling_exact (hr : (storeSystem srv).Reachable
      ⟨World.initial objects, fun i => (call i).runUnder ceiling ceiling⟩ c) {i : ι}
    {keys : BronzeObjectKeys} (hkeys : (call i).keys = .ok keys) (hcall : (call i).Unhindered) :
    (∀ n p, c.shared.puts.entry i n = some p → p.request.body.length ≤ ceiling ∧
      ∃ kind, p.request = (call i).payloadRequest keys kind ∧ (call i).Fits ceiling keys kind) ∧
    (∀ r, (c.procs i).outcome = some r → ¬ Obstructed srv (call i) keys i c.shared →
      CeilingExact (call i) ceiling keys i c.shared r) ∧
    (∀ r, (c.procs i).outcome = some r → (∀ e, r = .error e → ¬ StoreFailure e) →
      CeilingExact (call i) ceiling keys i c.shared r) ∧
    (ceiling < ((call i).payload keys .evidenceManifest).length → ∃ before item after,
      (call i).evidence.items = before ++ item :: after ∧ (evidenceBytes before).length ≤ ceiling ∧
      ceiling < (evidenceBytes (before ++ [item])).length ∧
      (spoolLoop ceiling (call i).artifact ((call i).store.uri keys.evidenceManifest)
        (call i).staging.evidenceSpool (call i).evidence).pulled = before ++ [item]) ∧
    (∀ clientCeiling, ceiling ≤ clientCeiling →
      (call i).runUnder ceiling clientCeiling = (call i).runUnder ceiling ceiling) := by
  have hkept := SentFitting.keptQuietly (call i) ceiling keys i
  have hempty : SentFitting (call i) ceiling keys i (World.initial objects) := by
    intro n p hp
    simp [World.initial] at hp
  have hguarded := hr.started rfl (fun _ _ hrely h => hkept.quiet (Rely.quiet hrely) h) hempty
    (safe_storeBundle_ceiling hcall hkeys rfl)
  have hending : ∀ r, (c.procs i).outcome = some r → CeilingExact (call i) ceiling keys i c.shared r ∨
      Obstructed srv (call i) keys i c.shared ∧ ∃ e, r = .error e ∧ StoreFailure e := fun r ho =>
    (hguarded.post (fun w w' hrely h => ⟨hkept.quiet (Rely.quiet hrely) h.1,
      h.2.since (Rely.quiet hrely).since⟩) ho).2.exact hguarded.inv
  refine ⟨fun n p hp => ?_, fun r ho hclear => ?_, fun r ho hfailure => ?_, fun hlarge => ?_,
    fun clientCeiling hle => (call i).runUnder_client hle⟩
  · obtain ⟨kind, hreq, hfits⟩ := hguarded.inv n p hp
    have hbody : p.request.body = (call i).payload keys kind := by
      rw [hreq]
      rfl
    rw [hbody]
    exact ⟨hfits kind List.mem_cons_self, kind, hreq, hfits⟩
  · exact (hending r ho).resolve_right fun h => hclear h.1
  · refine (hending r ho).resolve_right ?_
    rintro ⟨-, e, rfl, he⟩
    exact hfailure e rfl he
  · obtain ⟨before, item, after, hitems, hbefore, hsize, -, hpulled⟩ :=
      spoolEvidence_tooLarge ((call i).store.uri keys.evidenceManifest)
        (call i).staging.evidenceSpool hcall.coherent
        (fun n => by rw [hcall.evidenceSpool]; rfl) hlarge
    exact ⟨before, item, after, hitems, hbefore, hsize, hpulled⟩

section Progress

omit [DecidableEq ι] in
/-- A PUT that was answered with success obstructs nothing. -/
theorem World.PutLanded.unobstructed {i : ι} {call : BundleCall} {keys : BronzeObjectKeys}
    {w w' : World ι} {create : CreateCall} {answer : Except Exc HttpResponse}
    (h : w.PutLanded i create answer w') (hsucc : Succeeded answer)
    (hw : ¬ Obstructed srv call keys i w) : ¬ Obstructed srv call keys i w' := by
  intro hobstructed
  cases hobstructed with
  | put n a hanswered hfail =>
    rcases h.answered n a hanswered with hold | rfl
    · exact hw (.put n a hold hfail)
    · exact hfail hsucc
  | occupied key hk hforeign =>
    obtain ⟨o, ho, hnot⟩ := hforeign
    rw [h.objects] at ho
    rcases World.put_cases ho with ⟨-, rfl⟩ | hold
    · exact hnot _ rfl
    · exact hw (.occupied key hk ⟨o, hold, hnot⟩)
  | head e hfail => exact hw (.head e hfail)

/-- On free keys, and whatever the ceiling, a call that staging faults do not disturb can come to its
    end without the server in its way. -/
theorem runs_runUnder {i : ι} {call : BundleCall} {keys : BronzeObjectKeys} {w : World ι}
    (hsrv : srv.answers 200 .landed true) (hmax : ceiling ≤ maxSinglePutSizeBytes)
    (hkeys : call.keys = .ok keys) (hcall : call.Unhindered)
    (hfree : ∀ key ∈ keys.toList, w.objects (call.objectKey key) = none)
    (hw : ¬ Obstructed srv call keys i w) :
    ∃ r w', (storeSystem srv).Runs i (call.runUnder ceiling ceiling) w r w' ∧
      ¬ Obstructed srv call keys i w' := by
  have hbuilt : buildBronzeObjectKeys call.artifact
      (call.storeUnder ceiling maxSinglePutSizeBytes).bronzePrefix = .ok keys := hkeys
  rw [← call.runUnder_client hmax, BundleCall.runUnder, MinioBronzeArtifactStore.storeBundle,
    if_pos hcall.isFile, hbuilt,
    (call.storeUnder ceiling maxSinglePutSizeBytes).targetFor_eq hbuilt]
  simp only [Program.ofExcept, Program.bind_eq, Program.bind]
  -- the artifact
  rcases Nat.lt_or_ge ceiling (call.payload keys .artifact).length with hlarge | hartifact
  · obtain ⟨size, -, heq⟩ := storeArtifact_tooLarge hcall (call.targetOf keys) hlarge
    have hraise : (storeSystem srv).Runs i ((call.storeUnder ceiling
        maxSinglePutSizeBytes).storeArtifact call.staging call.artifact keys (call.targetOf keys)) w
        (.error (.singlePutSizeLimitError (call.store.uri keys.artifact) size ceiling)) w := by
      rw [heq]
      exact .raise _ _
    exact ⟨_, w, .bind_error hraise, hw⟩
  have hfaults : ∀ n, call.staging.artifactSpool.write n = none := fun n => by
    rw [hcall.artifactSpool]; rfl
  let base : ArtifactPlan call := ⟨keys, hkeys, .ofBytes (call.payload keys .artifact),
    snapshotArtifact_complete hcall.read_to_end hfaults (hartifact.trans hmax) hcall.checksum⟩
  have hready : base.ReadyUnder ceiling := ⟨by rw [hcall.artifactSpool]; rfl,
    by rw [hcall.artifactSpool]; rfl,
    snapshotArtifact_complete hcall.read_to_end hfaults hartifact hcall.checksum, hartifact⟩
  obtain ⟨w₁, hrun₁, hl₁⟩ := runs_storeArtifact (i := i) hsrv base hready (hartifact.trans hmax) hfree
  have hw₁ := hl₁.unobstructed (.inl rfl) hw
  have hd := base.keys_distinct
  -- the evidence
  rcases Nat.lt_or_ge ceiling (call.payload keys .evidenceManifest).length with hlarge | hevidence
  · obtain ⟨size, -, heq⟩ := writeEvidence_tooLarge hcall keys hlarge
    have hraise : (storeSystem srv).Runs i ((call.storeUnder ceiling
        maxSinglePutSizeBytes).writeEvidence call.staging call.artifact call.evidence
          keys.evidenceManifest) w₁
        (.error (.singlePutSizeLimitError (call.store.uri keys.evidenceManifest) size ceiling)) w₁ := by
      rw [heq]
      exact .raise _ _
    exact ⟨_, w₁, .bind hrun₁ (.bind_error hraise), hw₁⟩
  have hspooled : ∀ limit, (call.payload keys .evidenceManifest).length ≤ limit →
      spoolEvidence limit call.artifact (call.store.uri keys.evidenceManifest)
        call.staging.evidenceSpool call.evidence = .ok (.ofItems call.evidence.items) :=
    fun _ hfit => spoolEvidence_complete hcall.ending hcall.coherent
      (fun n => by rw [hcall.evidenceSpool]; rfl) hfit
  let plan : BundlePlan call := ⟨base, _, hspooled maxSinglePutSizeBytes (hevidence.trans hmax)⟩
  have haccepted : plan.evidenceCreate.Accepted := hevidence.trans hmax
  obtain ⟨w₂, hput₂, hl₂⟩ := runs_create (i := i) (w := w₁) hsrv haccepted
    plan.evidenceCreate_honest.whole
    (hl₁.free (fun h => hd.artifact_evidence (congrArg Prod.snd h).symm)
      (hfree _ (keys.get_mem .evidenceManifest)))
  have hw₂ := hl₂.unobstructed (.inl rfl) hw₁
  have hrun₂ := runs_writeEvidence plan (by rw [hcall.evidenceSpool]; rfl)
    (by rw [hcall.evidenceSpool]; rfl) (hspooled ceiling hevidence) hevidence hput₂
  -- the marker
  rcases Nat.lt_or_ge ceiling (call.payload keys .completionManifest).length with hlarge | hmarker
  · have hraise : (storeSystem srv).Runs i ((call.storeUnder ceiling
        maxSinglePutSizeBytes).putIfAbsent keys.completionManifest plan.markerCreate.data
          plan.markerCreate.length plan.markerCreate.sha256 plan.markerCreate.contentType) w₂
        (.error (.singlePutSizeLimitError (call.store.uri keys.completionManifest)
          plan.markerCreate.length ceiling)) w₂ := by
      have hlt : (call.storeUnder ceiling maxSinglePutSizeBytes).ceiling < plan.markerCreate.length :=
        hlarge
      rw [MinioBronzeArtifactStore.putIfAbsent, if_pos hlt]
      exact .raise _ _
    exact ⟨_, w₂, .bind hrun₁ (.bind hrun₂ (.bind_error hraise)), hw₂⟩
  have haccepted : plan.markerCreate.Accepted := hmarker.trans hmax
  obtain ⟨w₃, hput₃, hl₃⟩ := runs_create (i := i) (w := w₂) hsrv haccepted
    plan.markerCreate_honest.whole
    (hl₂.free (fun h => hd.evidence_marker (congrArg Prod.snd h).symm)
      (hl₁.free (fun h => hd.artifact_marker (congrArg Prod.snd h).symm)
        (hfree _ (keys.get_mem .completionManifest))))
  have hrun₃ := runs_putIfAbsent call rfl hmarker hput₃
  exact ⟨_, w₃, .bind hrun₁ (.bind hrun₂ (.bind hrun₃ (.ret _ _))), hl₃.unobstructed (.inl rfl) hw₂⟩

end Progress

section Sample

/-- The sample call with this source URL. -/
def sampleFrom (run : UUID) (url : String) : BundleCall := { sampleBundleOf run csv none with
  artifact := { sampleArtifactOf run csv with sourceUrl := url } }

theorem sampleFrom_unhindered (run : UUID) (url : String) : (sampleFrom run url).Unhindered where
  isFile := rfl
  artifactSpool := rfl
  read_to_end := trivial
  checksum := nofun
  evidenceSpool := rfl
  ending := rfl
  coherent item hitem :=
    have h := sampleEvidence_coherent run csv item hitem
    ⟨h.source, h.run, h.contract, h.outcome⟩

theorem sampleFrom_keys (run : UUID) (url : String) :
    (sampleFrom run url).keys = .ok (sampleKeysOf run csv) :=
  (buildBronzeObjectKeys_congr (sampleFrom run url).artifact (sampleArtifactOf run csv) rfl rfl rfl rfl
    "bronze").trans (sampleArtifactOf_keys run csv)

/-- The length of one of its payloads. -/
def sampleLength (run : UUID) (url : String) (kind : KeyKind) : Nat :=
  ((sampleFrom run url).payload (sampleKeysOf run csv) kind).length

theorem sampleLength_artifact (run : UUID) (url : String) : sampleLength run url .artifact = 4 := rfl

theorem sampleLength_evidence_lt (run : UUID) (url : String) :
    sampleLength run url .evidenceManifest < 10 ^ 5 :=
  length_sampleLines_lt run

/-- The first line alone has the name of its first field. -/
theorem four_lt_length_sampleLine (run : UUID) :
    4 < (evidenceLine (sampleItem run .accepted)).length := by
  have hname : 4 < "provenance".toList.length := by decide
  have hline : "provenance".toList.length + _ <
      (canonicalJson (sampleItem run .accepted).modelDump).length :=
    length_lt_length_canonicalJson (List.mem_cons_self ..)
  rw [evidenceLine, List.length_append]
  omega

theorem four_lt_sampleLength_evidence (run : UUID) (url : String) :
    4 < sampleLength run url .evidenceManifest := by
  have hline := four_lt_length_sampleLine run
  have hlength : sampleLength run url .evidenceManifest = (evidenceBytes (sampleEvidence run)).length :=
    rfl
  have hlines : evidenceBytes (sampleEvidence run) =
      evidenceLine (sampleItem run .accepted) ++ evidenceBytes ((sampleEvidence run).drop 1) :=
    List.flatMap_cons
  rw [hlength, hlines, List.length_append]
  omega

/-- The marker has the URL in it. -/
theorem length_lt_sampleLength_marker (run : UUID) (url : String) :
    url.toList.length < sampleLength run url .completionManifest := by
  have hmarker : "source_url".toList.length + (Json.str url).dumps.length <
      sampleLength run url .completionManifest :=
    length_lt_length_canonicalJson (show ("source_url", Json.str url) ∈ _ by
      exact .tail _ (.tail _ (.tail _ (.head _))))
  have hquote := Json.length_le_length_quote url
  rw [Json.dumps] at hmarker
  omega

/-- Its manifest. -/
def sampleManifest (run : UUID) (url : String) : BronzeCompletionManifest :=
  { (sampleBundlePlanOf run csv).completion with sourceUrl := url }

theorem sampleLength_marker_le (run : UUID) {url : String} (hurl : url.toList.length ≤ 10 ^ 5) :
    sampleLength run url .completionManifest ≤ maxSinglePutSizeBytes := by
  have hpayload : (sampleFrom run url).payload (sampleKeysOf run csv) .completionManifest =
      canonicalJson (sampleManifest run url).modelDump := rfl
  have hwidth : (sampleManifest run url).modelDump.width ≤
      (sampleBundlePlanOf run csv).completion.modelDump.width + 6 * url.toList.length :=
    (sampleBundlePlanOf run csv).completion.width_modelDump_url_le url
  have hsample : (sampleBundlePlanOf run csv).completion.modelDump.width ≤ 10000 :=
    width_sampleCompletion_le run (by decide)
  have hlength := length_canonicalJson_le (sampleManifest run url).modelDump
  have hmax : 4 * (10000 + 6 * 10 ^ 5) ≤ maxSinglePutSizeBytes := by decide
  rw [sampleLength, hpayload]
  omega

/-- A run of the call alone on an empty store, under a ceiling, to this end and with these payloads
    written. -/
def SampleEnds (run : UUID) (url : String) (ceiling : Nat) (r : Except Exc BronzeBundleReceipt)
    (written : List KeyKind) : Prop :=
  ∃ c : Config Unit httpSignature (World Unit) Exc BronzeBundleReceipt,
    (storeSystem Server.strict).Reachable ⟨World.initial fun _ => none,
      fun _ => (sampleFrom run url).runUnder ceiling ceiling⟩ c ∧
    (c.procs ()).outcome = some r ∧
    ∀ kind ∈ written, c.shared.Wrote () ((sampleFrom run url).payloadRequest (sampleKeysOf run csv) kind)

theorem sample_unobstructed (run : UUID) (url : String) {ceiling : Nat}
    (hmax : ceiling ≤ maxSinglePutSizeBytes) :
    ∃ (c : Config Unit httpSignature (World Unit) Exc BronzeBundleReceipt) (r : _),
      (storeSystem Server.strict).Reachable ⟨World.initial fun _ => none,
        fun _ => (sampleFrom run url).runUnder ceiling ceiling⟩ c ∧
      (c.procs ()).outcome = some r ∧
      ¬ Obstructed Server.strict (sampleFrom run url) (sampleKeysOf run csv) () c.shared := by
  have hclear : ¬ Obstructed Server.strict (sampleFrom run url) (sampleKeysOf run csv) ()
      (World.initial fun _ => none) := by
    rintro (⟨n, answer, ⟨p, hp, -⟩, -⟩ | ⟨key, -, o, ho, -⟩ | ⟨e, hfail⟩)
    · simp [World.initial] at hp
    · simp [World.initial] at ho
    · exact Server.strict_answersStats e hfail
  have hfree : ∀ key ∈ (sampleKeysOf run csv).toList, (World.initial fun _ => none : World Unit).objects
      ((sampleFrom run url).objectKey key) = none := fun _ _ => rfl
  obtain ⟨r, w, hrun, hw⟩ := runs_runUnder (i := ()) Server.strict_grants hmax
    (sampleFrom_keys run url) (sampleFrom_unhindered run url) hfree hclear
  have hr : (storeSystem Server.strict).Reachable ⟨World.initial fun _ => none,
      fun _ => (sampleFrom run url).runUnder ceiling ceiling⟩
      ⟨w, Function.update (fun _ => (sampleFrom run url).runUnder ceiling ceiling) () (.ofExcept r)⟩ :=
    hrun.reachable rfl .refl
  refine ⟨_, r, hr, ?_, hw⟩
  dsimp only
  rw [Function.update_self, Program.outcome_ofExcept]

/-- At each of the three boundaries: one byte short of the artifact nothing is sent; with room for
    exactly the artifact its evidence is refused, after its first line; with room for exactly the
    evidence the marker is refused; and with room for exactly the marker the call returns. -/
theorem storeBundle_ceiling_exact_sample : ∃ url : String,
    (∃ size, SampleEnds sampleId url 3 (.error (.singlePutSizeLimitError
      ((sampleFrom sampleId url).store.uri (sampleKeys csv).artifact) size 3)) []) ∧
    (∃ size, SampleEnds sampleId url 4 (.error (.singlePutSizeLimitError
      ((sampleFrom sampleId url).store.uri (sampleKeys csv).evidenceManifest) size 4)) [.artifact]) ∧
    (spoolLoop 4 (sampleFrom sampleId url).artifact
      ((sampleFrom sampleId url).store.uri (sampleKeys csv).evidenceManifest) .none
      (sampleFrom sampleId url).evidence).pulled = [sampleItem sampleId .accepted] ∧
    (∃ size, SampleEnds sampleId url (sampleLength sampleId url .evidenceManifest)
      (.error (.singlePutSizeLimitError
        ((sampleFrom sampleId url).store.uri (sampleKeys csv).completionManifest) size
        (sampleLength sampleId url .evidenceManifest))) [.artifact, .evidenceManifest]) ∧
    ∃ receipt, SampleEnds sampleId url (sampleLength sampleId url .completionManifest) (.ok receipt)
      [.artifact, .evidenceManifest, .completionManifest] := by
  obtain ⟨url, hurl⟩ : ∃ url : String, url.toList.length = 10 ^ 5 :=
    ⟨.ofList (List.replicate (10 ^ 5) 'u'), by rw [String.toList_ofList, List.length_replicate]⟩
  have hartifact := sampleLength_artifact sampleId url
  have hevidence := four_lt_sampleLength_evidence sampleId url
  have hmarker := length_lt_sampleLength_marker sampleId url
  have hbound := sampleLength_evidence_lt sampleId url
  have hmax := sampleLength_marker_le sampleId hurl.le
  -- under each ceiling the call has ended as the ceiling decides
  have hexact : ∀ ceiling ≤ maxSinglePutSizeBytes,
      ∃ (c : Config Unit httpSignature (World Unit) Exc BronzeBundleReceipt) (r : _),
        (storeSystem Server.strict).Reachable ⟨World.initial fun _ => none,
          fun _ => (sampleFrom sampleId url).runUnder ceiling ceiling⟩ c ∧
        (c.procs ()).outcome = some r ∧
        CeilingExact (sampleFrom sampleId url) ceiling (sampleKeys csv) () c.shared r := by
    intro ceiling hle
    obtain ⟨c, r, hr, ho, hclear⟩ := sample_unobstructed sampleId url hle
    exact ⟨c, r, hr, ho, (storeBundle_ceiling_exact hr (sampleFrom_keys sampleId url)
      (sampleFrom_unhindered sampleId url)).2.1 r ho hclear⟩
  -- and is refused for a payload that is too large, if those before it fit
  have hrefused : ∀ kind ceiling, ceiling ≤ maxSinglePutSizeBytes →
      ceiling < sampleLength sampleId url kind →
      (∀ k ∈ kind.before, sampleLength sampleId url k ≤ ceiling) →
      ∃ size, SampleEnds sampleId url ceiling (.error (.singlePutSizeLimitError
        ((sampleFrom sampleId url).store.uri ((sampleKeys csv).get kind)) size ceiling))
        kind.before := by
    intro kind ceiling hle hlarge hbefore
    obtain ⟨c, r, hr, ho, hends⟩ := hexact ceiling hle
    obtain ⟨⟨size, -, rfl⟩, hwrote, -⟩ := hends.refused kind hlarge hbefore
    exact ⟨size, c, hr, ho, hwrote⟩
  have hfirst := hrefused .artifact 3 (by decide) (by omega) nofun
  have hsecond := hrefused .evidenceManifest 4 (by decide) hevidence (by
    simp only [KeyKind.before, List.forall_mem_cons]
    exact ⟨hartifact.le, nofun⟩)
  have hthird := hrefused .completionManifest (sampleLength sampleId url .evidenceManifest) (by omega)
    (by omega) (by
      simp only [KeyKind.before, List.forall_mem_cons]
      exact ⟨by omega, le_rfl, nofun⟩)
  simp only [BronzeObjectKeys.get, KeyKind.before] at hfirst hsecond hthird
  refine ⟨url, hfirst, hsecond, ?_, hthird, ?_⟩
  · obtain ⟨c, r, hr, -⟩ := hexact 4 (by decide)
    obtain ⟨before, item, after, hitems, hfit, -, hpulled⟩ := (storeBundle_ceiling_exact (i := ()) hr
      (sampleFrom_keys sampleId url) (sampleFrom_unhindered sampleId url)).2.2.2.1 hevidence
    have hitems : sampleEvidence sampleId = before ++ item :: after := hitems
    cases before with
    | nil =>
      rw [(List.cons.inj hitems).1]
      exact hpulled
    | cons first before =>
      obtain rfl : sampleItem sampleId .accepted = first := (List.cons.inj hitems).1
      have hline := four_lt_length_sampleLine sampleId
      rw [evidenceBytes, List.flatMap_cons, List.length_append] at hfit
      omega
  · obtain ⟨c, r, hr, ho, hends⟩ := hexact _ hmax
    obtain ⟨rfl, hwrote⟩ := hends.accepted fun kind => by
      show sampleLength sampleId url kind ≤ _
      cases kind <;> omega
    exact ⟨_, c, hr, ho, fun kind _ => hwrote kind⟩

end Sample

end EvidenceCartographer.Infrastructure
