import EvidenceCartographer.Concurrency.Run
import EvidenceCartographer.Infrastructure.BundleOutcome

/-! What a client and a store can do on keys that are free.

    A HEAD request for a free key can be answered as missing and one for an occupied key with its
    object; a create on a free key can take effect, and be answered or not. So every staged bundle
    whose keys are free can be committed. -/

namespace EvidenceCartographer.Infrastructure

open Python Domain Application Concurrency MinioConditionalObjectClient

variable {ι : Type} [DecidableEq ι] {srv : Server} {i : ι} {w : World ι}

/-- Same objects, same PUTs. -/
def World.SameStore (w w' : World ι) : Prop := w'.objects = w.objects ∧ w'.puts = w.puts

/-- The answer for a key that holds nothing. -/
def noSuchKey : Exc := .s3Error ⟨some "NoSuchKey", none, none, none, "no such key"⟩

/-- One more PUT of call `i`, for this create, with its object and its answer. -/
structure World.PutLanded (w : World ι) (i : ι) (create : CreateCall) (answer : Except Exc HttpResponse)
    (w' : World ι) : Prop where
  objects : w'.objects = World.put w.objects create.key (create.request.record (i, w.puts.size i))
  size : w'.puts.size i = w.puts.size i + 1
  answered : ∀ n a, w'.Answered i n a → w.Answered i n a ∨ a = answer

omit [DecidableEq ι] in
theorem World.PutLanded.of_sameStore {w₁ w' : World ι} {create : CreateCall}
    {answer : Except Exc HttpResponse} (hsame : w.SameStore w₁)
    (h : w₁.PutLanded i create answer w') : w.PutLanded i create answer w' where
  objects := by rw [h.objects, hsame.1, hsame.2]
  size := by rw [h.size, hsame.2]
  answered n a ha := by
    rcases h.answered n a ha with ⟨p, hp, hans⟩ | rfl
    · exact .inl ⟨p, hsame.2 ▸ hp, hans⟩
    · exact .inr rfl

omit [DecidableEq ι] in
/-- Other keys stay free. -/
theorem World.PutLanded.free {w' : World ι} {create : CreateCall} {answer : Except Exc HttpResponse}
    {key : ObjectKey} (h : w.PutLanded i create answer w') (hne : key ≠ create.key)
    (hfree : w.objects key = none) : w'.objects key = none := by
  rw [h.objects, World.put, Function.update_of_ne hne]
  exact hfree

/-- The server sees the key of a HEAD request, between its sending and its answer. -/
theorem exists_observed (srv : Server) (w : World ι) (i : ι) (key : ObjectKey) : ∃ w' : World ι,
    w.SameStore w' ∧ w'.stats.size i = w.stats.size i + 1 ∧
    w'.stats.entry i (w.stats.size i) = some ⟨key, some (w.objects key)⟩ ∧
    ∀ {p : httpSignature.Reply (.statSend key) → Program httpSignature Exc ObjectStat} {r w''},
      (storeSystem srv).Runs i (p ()) w' r w'' →
      (storeSystem srv).Runs i (.call (HttpOp.statSend key) p) w r w'' := by
  have hentry : (w.sendStat i key).stats.entry i (w.stats.size i) = some ⟨key, none⟩ :=
    Log.entry_push_self ..
  refine ⟨(w.sendStat i key).observe i _ _ hentry, ⟨rfl, rfl⟩, ?_, ?_, ?_⟩
  · exact (Log.size_amend ..).trans (Log.size_push_self ..)
  · rw [World.observe, Log.entry_amend hentry, if_pos ⟨rfl, rfl⟩]; rfl
  · intro p r w'' h
    exact .call (Exec.statSent w key) (.env (Serve.observe i _ _ hentry rfl) h)

theorem runs_stat_free (srv : Server) (i : ι) {key : ObjectKey} (hfree : w.objects key = none) :
    ∃ w', (storeSystem srv).Runs i (minioStatObject key) w (.error noSuchKey) w' ∧
      w.SameStore w' := by
  obtain ⟨w', hsame, hsize, hentry, hrun⟩ := exists_observed srv w i key
  rw [hfree] at hentry
  refine ⟨w'.answerStat i (.error noSuchKey), hrun ?_, hsame⟩
  exact .call (Exec.missing w' _ key noSuchKey hsize hentry rfl) (.ofExcept _ _)

theorem runs_stat_found (srv : Server) (i : ι) {key : ObjectKey} {o : ObjectRecord ι}
    (ho : w.objects key = some o) :
    ∃ w', (storeSystem srv).Runs i (minioStatObject key) w (.ok o.stat) w' ∧ w.SameStore w' := by
  obtain ⟨w', hsame, hsize, hentry, hrun⟩ := exists_observed srv w i key
  rw [ho] at hentry
  refine ⟨w'.answerStat i (.ok o.stat), hrun ?_, hsame⟩
  exact .call (Exec.found w' _ key o hsize hentry) (.ofExcept _ _)

theorem runs_stat_failed (i : ι) (w : World ι) (key : ObjectKey) {e : Exc} (hfail : srv.statFails e)
    (hm : isMissing e = false) :
    ∃ w', (storeSystem srv).Runs i (minioStatObject key) w (.error e) w' ∧ w.SameStore w' := by
  obtain ⟨w', hsame, hsize, hentry, hrun⟩ := exists_observed srv w i key
  refine ⟨w'.answerStat i (.error e), hrun ?_, hsame⟩
  exact .call (Exec.failed w' e hfail hm) (.ofExcept _ _)

/-- A PUT for a free key takes effect, between its sending and its answer. -/
theorem exists_landed (srv : Server) (i : ι) {create : CreateCall} (hwhole : create.Whole)
    (hfree : w.objects create.key = none) : ∃ w' : World ι,
    w'.puts.entry i (w.puts.size i) = some ⟨create.request, .landed, none⟩ ∧
    w'.puts.size i = w.puts.size i + 1 ∧
    (∀ hentry answer, w.PutLanded i create answer
      (w'.answerPut i (w.puts.size i) ⟨create.request, .landed, none⟩ hentry answer)) ∧
    ∀ {α : Type} {p : Except Exc Unit → Program httpSignature Exc α} {r w''},
      (storeSystem srv).Runs i (p (.ok ())) w' r w'' →
      (storeSystem srv).Runs i (.call (HttpOp.putSend create.request) p) w r w'' := by
  have hentry : (w.sendPut i ⟨create.request, .pending, none⟩ (by simp)).puts.entry i
      (w.puts.size i) = some ⟨create.request, .pending, none⟩ := Log.entry_push_self ..
  have hsize : (World.land _ i _ _ hentry hwhole.ge hfree).puts.size i = w.puts.size i + 1 :=
    (Log.size_amend ..).trans (Log.size_push_self ..)
  refine ⟨World.land _ i _ _ hentry hwhole.ge hfree, ?_, hsize, fun hlanded answer => ?_, ?_⟩
  · exact (Log.entry_amend hentry ..).trans (if_pos ⟨rfl, rfl⟩)
  · refine ⟨rfl, (Log.size_amend ..).trans hsize, ?_⟩
    -- no entry but the new one was touched
    rintro n a ⟨p, hp, hans⟩
    rw [World.answerPut, World.setPut, Log.entry_amend hlanded] at hp
    split at hp
    · cases hp
      exact .inr (Option.some.inj hans).symm
    rename_i hne
    have hp : ((w.sendPut i ⟨create.request, .pending, none⟩ (by simp)).puts.amend i (w.puts.size i)
      ⟨create.request, .landed, none⟩).entry i n = some p := hp
    rw [Log.entry_amend hentry, if_neg hne, World.sendPut, Log.entry_push, if_neg hne] at hp
    exact .inl ⟨p, hp, hans⟩
  · intro α p r w'' h
    exact .call (Exec.sent w create.request) (.env (Serve.land i _ _ hentry hwhole.ge hfree rfl) h)

/-- A create on a free key, answered 200. -/
theorem runs_create (hsrv : srv.answers 200 .landed true) {create : CreateCall}
    (haccepted : create.Accepted) (hwhole : create.Whole) (hfree : w.objects create.key = none) :
    ∃ w', (storeSystem srv).Runs i create.run w (.ok ()) w' ∧
      w.PutLanded i create (.ok (plainResponse 200)) w' := by
  obtain ⟨w', hentry, hsize, hl, hrun⟩ := exists_landed srv i hwhole hfree
  refine ⟨w'.answerPut i _ _ hentry (.ok (plainResponse 200)), ?_, hl hentry _⟩
  have hocc : (w'.objects create.request.key).isSome = true := by
    rw [show w'.objects = _ from (hl hentry (.ok (plainResponse 200))).objects,
      show create.request.key = create.key from rfl, World.put, Function.update_self]
    rfl
  simp only [CreateCall.run, minioConditionalObjectClient, putObjectIfAbsent,
    if_neg (Nat.not_lt.mpr haccepted)]
  refine .bind (hrun (.call (Exec.answered w' _ _ (plainResponse 200) 0 hentry hsize ?_)
    (.ret _ _))) (.ret _ _)
  rw [hocc]; exact hsrv

/-- A create on a free key that takes effect, with its answer lost and its reconciliation failing. -/
theorem runs_create_lost {e : Exc} (hfail : srv.statFails e) (hm : isMissing e = false) (exc : Exc)
    {create : CreateCall} (haccepted : create.Accepted) (hwhole : create.Whole)
    (hfree : w.objects create.key = none) :
    ∃ w', (storeSystem srv).Runs i create.run w
        (.error (.conditionalPutError (exceptionDiagnostic exc) 1 (some e))) w' ∧
      w.PutLanded i create (.error exc) w' := by
  obtain ⟨w₁, hentry, hsize, hl, hrun⟩ := exists_landed srv i hwhole hfree
  obtain ⟨w', hstat, hsame⟩ := runs_stat_failed i (w₁.answerPut i _ _ hentry (.error exc))
    create.key hfail hm
  have hl := hl hentry (.error exc)
  refine ⟨w', ?_, hsame.1.trans hl.objects, by rw [hsame.2]; exact hl.size, fun n a ha => ?_⟩
  swap
  · obtain ⟨p, hp, hans⟩ := ha
    exact hl.answered n a ⟨p, hsame.2 ▸ hp, hans⟩
  simp only [CreateCall.run, minioConditionalObjectClient, putObjectIfAbsent,
    if_neg (Nat.not_lt.mpr haccepted)]
  refine .bind (hrun (.call (Exec.broken w₁ _ _ exc 0 hentry hsize) (.ret _ _))) ?_
  -- the reconciliation raises what the HEAD request raised
  have hrec : (storeSystem srv).Runs i
      (reconcileObject create.bucketName create.objectName create.length create.sha256)
      (w₁.answerPut i _ _ hentry (.error exc)) (.error e) w' := by
    refine .bind (.attempt (.bind_error hstat)) ?_
    simp only [hm]
    exact .raise _ _
  exact .bind (.attempt hrec) (.raise _ _)

/-- A create whose PUT breaks off, on a key that holds an object that matches its payload. -/
theorem runs_create_found (srv : Server) (i : ι) (exc : Exc) {create : CreateCall}
    (haccepted : create.Accepted) (hholds : w.Holds create.key create.length create.sha256) :
    ∃ w', (storeSystem srv).Runs i create.run w (.ok ()) w' ∧ w'.objects = w.objects := by
  obtain ⟨o, ho, hmatches⟩ := hholds
  have hentry : (w.sendPut i ⟨create.request, .pending, none⟩ (by simp)).puts.entry i
      (w.puts.size i) = some ⟨create.request, .pending, none⟩ := Log.entry_push_self ..
  have hsize : (w.sendPut i ⟨create.request, .pending, none⟩ (by simp)).puts.size i =
      w.puts.size i + 1 := Log.size_push_self ..
  have hfound : (World.answerPut _ i _ _ hentry (.error exc)).objects create.key = some o := ho
  obtain ⟨w', hstat, hsame⟩ := runs_stat_found srv i hfound
  refine ⟨w', ?_, hsame.1⟩
  simp only [CreateCall.run, minioConditionalObjectClient, putObjectIfAbsent,
    if_neg (Nat.not_lt.mpr haccepted)]
  refine .bind (.call (Exec.sent w create.request) (.call (Exec.broken _ _ _ exc 0 hentry hsize)
    (.ret _ _))) ?_
  -- the reconciliation sees the object
  have hstated : (storeSystem srv).Runs i (statObject create.bucketName create.objectName)
      (World.answerPut _ i _ _ hentry (.error exc))
      (.ok ⟨create.length, some create.sha256, some (create.length : Int)⟩) w' :=
    .bind hstat (by rw [hmatches]; exact .ofExcept (.ok _) w')
  have hrec : (storeSystem srv).Runs i
      (reconcileObject create.bucketName create.objectName create.length create.sha256)
      (World.answerPut _ i _ _ hentry (.error exc)) (.ok .found) w' := by
    refine .bind (.attempt hstated) ?_
    simp only [and_self, if_true]
    exact .ret _ _
  exact .bind (.attempt hrec) (.ret _ _)

variable {call : BundleCall} {ceiling : Nat}

theorem runs_assertAbsent_free (srv : Server) (i : ι) (ceiling : Nat) {keys : List String}
    (hfree : ∀ key ∈ keys, w.objects (call.objectKey key) = none) :
    ∃ w', (storeSystem srv).Runs i
        ((call.storeUnder ceiling maxSinglePutSizeBytes).assertAbsent keys) w (.ok ()) w' ∧
      w.SameStore w' := by
  induction keys generalizing w with
  | nil => exact ⟨w, .ret _ _, rfl, rfl⟩
  | cons key keys ih =>
    obtain ⟨w₁, hstat, hsame₁⟩ := runs_stat_free srv i (hfree key (by simp))
    obtain ⟨w₂, hrest, hsame₂⟩ := ih (w := w₁) fun key' hk => by
      rw [hsame₁.1]; exact hfree key' (List.mem_cons_of_mem _ hk)
    have hexists : (storeSystem srv).Runs i
        ((call.storeUnder ceiling maxSinglePutSizeBytes).existsKey key) w (.ok false) w₁ :=
      .bind (.attempt (.bind_error hstat)) (.ret _ _)
    exact ⟨w₂, .bind hexists hrest, hsame₂.1.trans hsame₁.1, hsame₂.2.trans hsame₁.2⟩

/-- A run of the client's create is one of the store's. -/
theorem runs_putIfAbsent (call : BundleCall) {create : CreateCall}
    (hbucket : create.bucketName = call.bucketName) (hfits : create.length ≤ ceiling)
    {r : Except Exc Unit} {w' : World ι} (h : (storeSystem srv).Runs i create.run w r w') :
    (storeSystem srv).Runs i ((call.storeUnder ceiling maxSinglePutSizeBytes).putIfAbsent
      create.objectName create.data create.length create.sha256 create.contentType) w
      (r.mapError (putError (call.store.uri create.objectName))) w' := by
  have hle : ¬ (call.storeUnder ceiling maxSinglePutSizeBytes).ceiling < create.length :=
    Nat.not_lt.mpr hfits
  rw [MinioBronzeArtifactStore.putIfAbsent, if_neg hle]
  rw [CreateCall.run, hbucket] at h
  cases r with
  | ok u => exact .handle_ok h
  | error e => exact .handle h (.raise _ _)

/-- The targets of a bundle with these keys. -/
def BundleCall.targetOf (call : BundleCall) (keys : BronzeObjectKeys) : BronzeBundleTarget :=
  ⟨call.store.uri keys.artifact, call.store.uri keys.evidenceManifest,
    call.store.uri keys.completionManifest⟩

/-- An artifact that meets no obstacle of its own under a ceiling. -/
structure ArtifactPlan.ReadyUnder (plan : ArtifactPlan call) (ceiling : Nat) : Prop where
  spool : call.staging.artifactSpool.create = none
  rewind : call.staging.artifactSpool.rewind = none
  snapshot : snapshotArtifact ceiling call.artifact (call.store.uri plan.keys.artifact)
    call.staging = .ok plan.snapshot
  fits : plan.create.length ≤ ceiling

/-- The first block of `store_bundle` on free keys can come to where it creates its object. -/
theorem reaches_storeArtifact (srv : Server) (i : ι) {plan : ArtifactPlan call}
    (hready : plan.ReadyUnder ceiling)
    (hfree : ∀ key ∈ plan.keys.toList, w.objects (call.objectKey key) = none) :
    ∃ p w₁, (storeSystem srv).Reaches i ((call.storeUnder ceiling maxSinglePutSizeBytes).storeArtifact
        call.staging call.artifact plan.keys (call.targetOf plan.keys)) w p w₁ ∧ w.SameStore w₁ ∧
      ∀ w₂ w₃, (storeSystem srv).Runs i plan.create.run w₂ (.ok ()) w₃ →
        (storeSystem srv).Runs i p w₂ (.ok plan.object) w₃ := by
  obtain ⟨w₁, habsent, hsame⟩ := runs_assertAbsent_free srv i ceiling hfree
  have hsnap : snapshotArtifact (call.storeUnder ceiling maxSinglePutSizeBytes).ceiling call.artifact
    (call.targetOf plan.keys).artifactUri call.staging = .ok plan.snapshot := hready.snapshot
  rw [MinioBronzeArtifactStore.storeArtifact, withSpool, hready.spool]
  dsimp only
  rw [hsnap]
  refine ⟨_, w₁, (habsent.reaches.bind _).handle _, hsame, fun w₂ w₃ hcreate => .handle_ok ?_⟩
  exact .bind (.ofExcept (.ok ()) _) (.bind_ok (SpoolFaults.seekStart_ok hready.rewind)
    (.bind (runs_putIfAbsent call rfl hready.fits hcreate) (.ret _ _)))

theorem runs_storeArtifact (hsrv : srv.answers 200 .landed true) (plan : ArtifactPlan call)
    (hready : plan.ReadyUnder ceiling) (haccepted : plan.create.Accepted)
    (hfree : ∀ key ∈ plan.keys.toList, w.objects (call.objectKey key) = none) :
    ∃ w', (storeSystem srv).Runs i ((call.storeUnder ceiling maxSinglePutSizeBytes).storeArtifact
        call.staging call.artifact plan.keys (call.targetOf plan.keys)) w (.ok plan.object) w' ∧
      w.PutLanded i plan.create (.ok (plainResponse 200)) w' := by
  obtain ⟨p, w₁, hreach, hsame, hrest⟩ := reaches_storeArtifact srv i hready hfree
  obtain ⟨w₂, hput, hl⟩ := runs_create (i := i) (w := w₁) hsrv haccepted plan.create_honest.whole
    (by rw [hsame.1]; exact hfree _ (plan.keys.get_mem .artifact))
  exact ⟨w₂, hreach.runs (hrest _ _ hput), hl.of_sameStore hsame⟩

/-- `_write_evidence`, as its create goes. -/
theorem runs_writeEvidence (plan : BundlePlan call)
    (hspool : call.staging.evidenceSpool.create = none)
    (hrewind : call.staging.evidenceSpool.rewind = none)
    (hwritten : spoolEvidence ceiling call.artifact (call.store.uri plan.keys.evidenceManifest)
      call.staging.evidenceSpool call.evidence = .ok plan.written)
    (hfits : plan.evidenceCreate.length ≤ ceiling) {w' : World ι}
    (hput : (storeSystem srv).Runs i plan.evidenceCreate.run w (.ok ()) w') :
    (storeSystem srv).Runs i ((call.storeUnder ceiling maxSinglePutSizeBytes).writeEvidence
        call.staging call.artifact call.evidence plan.keys.evidenceManifest) w
      (.ok (plan.evidenceObject, plan.written.totalRecords, plan.written.counts)) w' := by
  have hwritten : spoolEvidence (call.storeUnder ceiling maxSinglePutSizeBytes).ceiling call.artifact
    ((call.storeUnder ceiling maxSinglePutSizeBytes).uri plan.keys.evidenceManifest)
      call.staging.evidenceSpool call.evidence = .ok plan.written := hwritten
  refine .handle_ok ?_
  rw [withSpool, hspool]
  dsimp only
  rw [hwritten]
  exact .bind (.ofExcept (.ok plan.written) _) (.bind_ok (SpoolFaults.seekStart_ok hrewind)
    (.bind (runs_putIfAbsent call rfl hfits hput) (.ret _ _)))

/-- A plan that meets no obstacle of its own. -/
structure BundlePlan.Ready (plan : BundlePlan call) : Prop where
  isFile : call.staging.file.isFile = true
  artifactSpool : call.staging.artifactSpool.create = none
  artifactRewind : call.staging.artifactSpool.rewind = none
  evidenceSpool : call.staging.evidenceSpool.create = none
  evidenceRewind : call.staging.evidenceSpool.rewind = none
  artifact : plan.create.Accepted
  evidence : plan.evidenceCreate.Accepted
  marker : plan.markerCreate.Accepted

theorem BundlePlan.Ready.readyUnder {plan : BundlePlan call} (h : plan.Ready) :
    plan.toArtifactPlan.ReadyUnder maxSinglePutSizeBytes :=
  ⟨h.artifactSpool, h.artifactRewind, plan.snapshot_eq, h.artifact⟩

theorem BundlePlan.evidence_accepted {plan : BundlePlan call} {items : List BronzeRecordEvidence}
    (hwritten : plan.written = .ofItems items)
    (hfit : (items.flatMap evidenceLine).length ≤ maxSinglePutSizeBytes) :
    plan.evidenceCreate.Accepted := by
  show plan.written.spool.position ≤ _
  rw [hwritten]
  exact hfit

theorem BundlePlan.marker_accepted {plan : BundlePlan call}
    (hfit : 4 * plan.completion.modelDump.width ≤ maxSinglePutSizeBytes) :
    plan.markerCreate.Accepted :=
  (length_canonicalJson_le _).trans hfit

/-- On free keys a ready bundle can come to where it creates its first object; then it goes on, in
    whatever state, as its three creates do. -/
theorem reaches_storeBundle (srv : Server) (i : ι) {plan : BundlePlan call} (hready : plan.Ready)
    (hfree : ∀ key ∈ plan.keys.toList, w.objects (call.objectKey key) = none) :
    ∃ p w₁, (storeSystem srv).Reaches i call.run w p w₁ ∧ w.SameStore w₁ ∧
      ∀ w₂ w₃ w₄ w₅ r, (storeSystem srv).Runs i plan.create.run w₂ (.ok ()) w₃ →
        (storeSystem srv).Runs i plan.evidenceCreate.run w₃ (.ok ()) w₄ →
        (storeSystem srv).Runs i plan.markerCreate.run w₄ r w₅ →
        (storeSystem srv).Runs i p w₂
          ((r.mapError (putError (call.store.uri plan.keys.completionManifest))).map
            fun _ => plan.receipt) w₅ := by
  obtain ⟨p, w₁, hreach, hsame, hrest⟩ := reaches_storeArtifact srv i hready.readyUnder hfree
  have hkeys : buildBronzeObjectKeys call.artifact call.store.bronzePrefix = .ok plan.keys :=
    plan.keys_eq
  rw [BundleCall.run, MinioBronzeArtifactStore.storeBundle, if_pos hready.isFile, hkeys,
    call.store.targetFor_eq plan.keys_eq]
  refine ⟨_, w₁, hreach.bind _, hsame, fun w₂ w₃ w₄ w₅ r hartifact hevidence hmarker => ?_⟩
  refine .bind (hrest _ _ hartifact) (.bind (runs_writeEvidence plan hready.evidenceSpool
    hready.evidenceRewind plan.written_eq hready.evidence hevidence) ?_)
  have hput := runs_putIfAbsent call rfl hready.marker hmarker
  cases r with
  | ok u => exact .bind hput (.ret _ _)
  | error e => exact .bind_error hput

/-- On free keys a call whose evidence cannot be staged leaves its artifact and raises. -/
theorem runs_storeBundle_abandons (hsrv : srv.answers 200 .landed true) (plan : ArtifactPlan call)
    (hfile : call.staging.file.isFile = true) (hready : plan.ReadyUnder maxSinglePutSizeBytes)
    (hevidence : call.staging.evidenceSpool.create = none)
    {e : Exc} (hspooled : call.spooled plan.keys = .error e)
    (hfree : ∀ key ∈ plan.keys.toList, w.objects (call.objectKey key) = none) :
    ∃ w', (storeSystem srv).Runs i call.run w (.error (evidenceError e)) w' ∧
      w.PutLanded i plan.create (.ok (plainResponse 200)) w' := by
  obtain ⟨w', hrun, hl⟩ := runs_storeArtifact (i := i) hsrv plan hready hready.fits hfree
  have hkeys : buildBronzeObjectKeys call.artifact call.store.bronzePrefix = .ok plan.keys :=
    plan.keys_eq
  have hspool : spoolEvidence call.store.ceiling call.artifact
    (call.store.uri plan.keys.evidenceManifest) call.staging.evidenceSpool call.evidence =
      .error e := hspooled
  have hwrite : (storeSystem srv).Runs i (call.store.writeEvidence call.staging call.artifact
      call.evidence plan.keys.evidenceManifest) w' (.error (evidenceError e)) w' := by
    refine .handle (?_ : (storeSystem srv).Runs i _ w' (.error e) w') (.raise _ w')
    rw [withSpool, hevidence]
    dsimp only
    rw [hspool]
    exact .bind_error (.ofExcept (.error e) _)
  refine ⟨w', ?_, hl⟩
  rw [BundleCall.run, MinioBronzeArtifactStore.storeBundle, if_pos hfile, hkeys,
    call.store.targetFor_eq plan.keys_eq]
  exact .bind (.ofExcept (.ok plan.keys) _) (.bind (.ofExcept (.ok _) _)
    (.bind hrun (.bind_error hwrite)))

/-- The three objects of a plan are those of the PUTs of call `i` from number `n` on. -/
structure World.HasBundle (w : World ι) (i : ι) (n : Nat) (plan : BundlePlan call) : Prop where
  artifact : w.objects plan.create.key = some (plan.create.request.record (i, n))
  evidence : w.objects plan.evidenceCreate.key =
    some (plan.evidenceCreate.request.record (i, n + 1))
  marker : w.objects plan.markerCreate.key = some (plan.markerCreate.request.record (i, n + 2))

/-- The three objects of a plan are new, and there is nothing else that is. -/
structure World.BundleLanded (w : World ι) (i : ι) (plan : BundlePlan call)
    (answer : Except Exc HttpResponse) (w' : World ι) : Prop
    extends w'.HasBundle i (w.puts.size i) plan where
  others : ∀ key, (∀ name ∈ plan.keys.toList, key ≠ call.objectKey name) →
    w'.objects key = w.objects key
  answered : ∀ n a, w'.Answered i n a → w.Answered i n a ∨ Succeeded a ∨ a = answer

/-- The three creates of a ready plan on free keys, the last one as it goes. -/
theorem runs_creates (hsrv : srv.answers 200 .landed true) {plan : BundlePlan call}
    (hready : plan.Ready) (hfree : ∀ key ∈ plan.keys.toList, w.objects (call.objectKey key) = none)
    {r : Except Exc Unit} {answer : Except Exc HttpResponse}
    (hmarker : ∀ w₂ : World ι, w₂.objects plan.markerCreate.key = none →
      ∃ w₃, (storeSystem srv).Runs i plan.markerCreate.run w₂ r w₃ ∧
        w₂.PutLanded i plan.markerCreate answer w₃) :
    ∃ w₁ w₂ w₃, (storeSystem srv).Runs i plan.create.run w (.ok ()) w₁ ∧
      (storeSystem srv).Runs i plan.evidenceCreate.run w₁ (.ok ()) w₂ ∧
      (storeSystem srv).Runs i plan.markerCreate.run w₂ r w₃ ∧ w.BundleLanded i plan answer w₃ := by
  have hd := plan.keys_distinct
  have hne₁₂ : plan.create.key ≠ plan.evidenceCreate.key :=
    fun h => hd.artifact_evidence (congrArg Prod.snd h)
  have hne₁₃ : plan.create.key ≠ plan.markerCreate.key :=
    fun h => hd.artifact_marker (congrArg Prod.snd h)
  have hne₂₃ : plan.evidenceCreate.key ≠ plan.markerCreate.key :=
    fun h => hd.evidence_marker (congrArg Prod.snd h)
  obtain ⟨w₁, hrun₁, hl₁⟩ := runs_create (i := i) hsrv hready.artifact plan.create_honest.whole
    (hfree _ (plan.keys.get_mem .artifact))
  have hfree₁ : w₁.objects plan.evidenceCreate.key = none :=
    hl₁.free hne₁₂.symm (hfree _ (plan.keys.get_mem .evidenceManifest))
  obtain ⟨w₂, hrun₂, hl₂⟩ := runs_create (i := i) hsrv hready.evidence
    plan.evidenceCreate_honest.whole hfree₁
  have hfree₂ : w₂.objects plan.markerCreate.key = none :=
    hl₂.free hne₂₃.symm (hl₁.free hne₁₃.symm (hfree _ (plan.keys.get_mem .completionManifest)))
  obtain ⟨w₃, hrun₃, hl₃⟩ := hmarker w₂ hfree₂
  refine ⟨w₁, w₂, w₃, hrun₁, hrun₂, hrun₃, ⟨?_, ?_, ?_⟩, fun key hkey => ?_, fun n a ha => ?_⟩
  · rw [hl₃.objects, World.put, Function.update_of_ne hne₁₃, hl₂.objects, World.put,
      Function.update_of_ne hne₁₂, hl₁.objects, World.put, Function.update_self]
  · rw [hl₃.objects, World.put, Function.update_of_ne hne₂₃, hl₂.objects, World.put,
      Function.update_self, hl₁.size]
  · rw [hl₃.objects, World.put, Function.update_self, hl₂.size, hl₁.size]
  · have hne : ∀ name ∈ plan.keys.toList, key ≠ (call.bucketName, name) := hkey
    rw [hl₃.objects, World.put, Function.update_of_ne, hl₂.objects, World.put,
      Function.update_of_ne, hl₁.objects, World.put, Function.update_of_ne]
    · exact hne _ (plan.keys.get_mem .artifact)
    · exact hne _ (plan.keys.get_mem .evidenceManifest)
    · exact hne _ (plan.keys.get_mem .completionManifest)
  · rcases hl₃.answered n a ha with ha | rfl
    · rcases hl₂.answered n a ha with ha | rfl
      · rcases hl₁.answered n a ha with ha | rfl
        · exact .inl ha
        · exact .inr (.inl (.inl rfl))
      · exact .inr (.inl (.inl rfl))
    · exact .inr (.inr rfl)

/-- On free keys a ready bundle reaches its marker, and ends as the marker's create does. -/
theorem runs_storeBundle (hsrv : srv.answers 200 .landed true) {plan : BundlePlan call}
    (hready : plan.Ready) (hfree : ∀ key ∈ plan.keys.toList, w.objects (call.objectKey key) = none)
    {r : Except Exc Unit} {answer : Except Exc HttpResponse}
    (hmarker : ∀ w₂ : World ι, w₂.objects plan.markerCreate.key = none →
      ∃ w₃, (storeSystem srv).Runs i plan.markerCreate.run w₂ r w₃ ∧
        w₂.PutLanded i plan.markerCreate answer w₃) :
    ∃ w', (storeSystem srv).Runs i call.run w
        ((r.mapError (putError (call.store.uri plan.keys.completionManifest))).map
          fun _ => plan.receipt) w' ∧ w.BundleLanded i plan answer w' := by
  obtain ⟨p, w₁, hreach, hsame, hrest⟩ := reaches_storeBundle srv i hready hfree
  obtain ⟨w₂, w₃, w₄, hrun₁, hrun₂, hrun₃, hl⟩ := runs_creates hsrv hready
    (fun key hk => (congrFun hsame.1 _).trans (hfree key hk)) hmarker
  refine ⟨w₄, hreach.runs (hrest _ _ _ _ _ hrun₁ hrun₂ hrun₃), ?_, fun key hkey => ?_,
    fun n a ha => ?_⟩
  · rw [← hsame.2]
    exact hl.toHasBundle
  · exact (hl.others key hkey).trans (congrFun hsame.1 key)
  · rcases hl.answered n a ha with ⟨q, hq, hans⟩ | hgood
    · exact .inl ⟨q, hsame.2 ▸ hq, hans⟩
    · exact .inr hgood

/-- So it can commit, with every PUT answered 200. -/
theorem runs_storeBundle_committed (hsrv : srv.answers 200 .landed true) {plan : BundlePlan call}
    (hready : plan.Ready)
    (hfree : ∀ key ∈ plan.keys.toList, w.objects (call.objectKey key) = none) :
    ∃ w', (storeSystem srv).Runs i call.run w (.ok plan.receipt) w' ∧
      w.BundleLanded i plan (.ok (plainResponse 200)) w' :=
  runs_storeBundle hsrv hready hfree fun _ hfree₂ =>
    runs_create hsrv hready.marker plan.markerCreate_honest.whole hfree₂

end EvidenceCartographer.Infrastructure
