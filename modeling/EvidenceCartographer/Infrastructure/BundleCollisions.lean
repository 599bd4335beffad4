import EvidenceCartographer.Infrastructure.Publication

/-! Which objects a `store_bundle` call collides with, and runs of its own.

    A collision is raised by the inspection of the three keys or by one of the three creates, and never
    for an object that the call put there itself: before its first PUT the call owns nothing, and a
    create that reports a collision was refused or met other contents. So a call whose run id no other
    call shares collides only with what was in the store at the start, and on keys that were free then
    nothing that the other calls do keeps it from committing. -/

namespace EvidenceCartographer.Infrastructure

open Python Domain Application Concurrency MinioConditionalObjectClient

/-- What the local machine and the evidence raise during the call. -/
inductive LocalFailure (call : BundleCall) (exc : Exc) : Prop where
  | artifactSpool : call.staging.artifactSpool.create = some exc → LocalFailure call exc
  | snapshot (keys) : call.snapshot keys = .error exc → LocalFailure call exc
  | artifactRewind : call.staging.artifactSpool.rewind = some exc → LocalFailure call exc
  | evidenceSpool : call.staging.evidenceSpool.create = some exc → LocalFailure call exc
  | spooled (keys) : call.spooled keys = .error exc → LocalFailure call exc
  | evidenceRewind : call.staging.evidenceSpool.rewind = some exc → LocalFailure call exc

/-- No collision is raised but by the store: not by the artifact's file, and not by the evidence. -/
def BundleCall.RaisesNoCollision (call : BundleCall) : Prop :=
  ∀ message, ¬ LocalFailure call (.objectAlreadyExistsError message)

variable {ι : Type} {call : BundleCall} {i : ι} {w w' : World ι} {keys : BronzeObjectKeys}

/-- Where a call that ends in a collision met it: at an inspection, or in a create for one of its keys
    for which it had sent nothing before. -/
inductive Collided (call : BundleCall) (keys : BronzeObjectKeys) (i : ι) (w : World ι) : Prop where
  | inspected (key) : key ∈ keys.toList → w.HoldsForeign i (call.objectKey key) →
      Collided call keys i w
  | created (create : CreateCall) (key w₁ diagnostic) : key ∈ keys.toList →
      create.key = call.objectKey key → create.Accepted →
      w₁.AllSent i (fun r => r.key ≠ create.key) →
      Ended maxSinglePutSizeBytes i w₁ create.length create.request create.sha256
        (.error (.conditionalObjectExistsError diagnostic)) w →
      Collided call keys i w

theorem Collided.rely (hr : Rely i w w') (h : Collided call keys i w) :
    Collided call keys i w' := by
  cases h with
  | inspected key hk hforeign => exact .inspected key hk (hforeign.objects hr.objects)
  | created create key w₁ diagnostic hk hkey ha hfresh hend =>
    exact .created create key w₁ diagnostic hk hkey ha hfresh (hend.rely hr)

/-- What is asked of an exception: a collision was met. -/
def Origin (call : BundleCall) (keys : BronzeObjectKeys) (i : ι) (w : World ι) (exc : Exc) : Prop :=
  ∀ message, exc = .objectAlreadyExistsError message → Collided call keys i w

theorem LocalFailure.origin {exc : Exc} (h : LocalFailure call exc)
    (hlocal : call.RaisesNoCollision) : Origin call keys i w exc := by
  rintro message rfl
  exact absurd h (hlocal message)

theorem evidenceError_collision {exc : Exc} {message : String}
    (h : evidenceError exc = .objectAlreadyExistsError message) :
    exc = .objectAlreadyExistsError message := by
  cases exc <;> simp [evidenceError, Exc.isOSError] at h ⊢
  exact h

theorem putError_collision {uri message : String} {exc : Exc}
    (h : putError uri exc = .objectAlreadyExistsError message) :
    ∃ diagnostic, exc = .conditionalObjectExistsError diagnostic := by
  cases exc <;> simp [putError] at h ⊢

/-- All PUTs of call `i` are for these keys. -/
def World.SentFor (w : World ι) (i : ι) (sent : List ObjectKey) : Prop :=
  w.AllSent i fun r => r.key ∈ sent

variable {sent : List ObjectKey}

theorem keptQuietly_sentFor (i : ι) (sent : List ObjectKey) :
    KeptQuietly i fun w => w.SentFor i sent :=
  keptQuietly_allSent fun _ _ _ _ h => h

theorem World.SentFor.cons {key : ObjectKey} (h : w.SentFor i sent) : w.SentFor i (key :: sent) :=
  fun n p hp => List.mem_cons_of_mem key (h n p hp)

section Client

variable [DecidableEq ι] {srv : Server}

/-- A create for a key of the call for which nothing was sent before. -/
theorem safe_putIfAbsent_origin (create : CreateCall) {key : String} (hk : key ∈ keys.toList)
    (hbucket : create.bucketName = call.bucketName) (hname : create.objectName = key)
    (hfresh : call.objectKey key ∉ sent) (hw : w.SentFor i sent) :
    (storeSystem srv).Safe i (fun w => w.SentFor i (call.objectKey key :: sent))
      (call.store.putIfAbsent create.objectName create.data create.length create.sha256
        create.contentType)
      (fun r w' => w'.SentFor i (call.objectKey key :: sent) ∧
        ∀ exc, r = .error exc → Origin call keys i w' exc) w := by
  have hkey : create.key = call.objectKey key := by
    rw [CreateCall.key, BundleCall.objectKey, hbucket, hname]
  by_cases ha : create.Accepted
  swap
  · -- refused for its size before it reaches the client
    have hlarge : call.store.ceiling < create.length := Nat.not_le.mp ha
    unfold MinioBronzeArtifactStore.putIfAbsent
    rw [if_pos hlarge]
    refine ⟨hw.cons, ?_⟩
    rintro _ ⟨⟩ message ⟨⟩
  refine (safe_putIfAbsent call create hbucket (keptQuietly_sentFor i _) (fun _ => ?_) hw.cons).mono ?_
  · have hmem : create.request.key ∈ call.objectKey key :: sent := by
      rw [show create.request.key = call.objectKey key from hkey]
      simp
    exact keptSending_allSent (fun _ _ _ _ h => h) hmem
  rintro _ w' ⟨hw', r', rfl, hend, -⟩
  refine ⟨hw', fun exc hexc message hmessage => ?_⟩
  cases r' with
  | ok u => cases hexc
  | error e =>
    obtain rfl : putError _ e = exc := Except.error.inj hexc
    obtain ⟨diagnostic, rfl⟩ := putError_collision hmessage
    refine .created create key w diagnostic hk hkey ha (fun n p hp heq => ?_) hend
    rw [hkey] at heq
    exact hfresh (heq ▸ hw n p hp)

/-- The first block, from before the call has sent anything. -/
theorem safe_storeArtifact_origin (hlocal : call.RaisesNoCollision) (hkeys : call.keys = .ok keys)
    (hw : w.puts.size i = 0) :
    (storeSystem srv).Safe i (fun w => w.SentFor i [call.objectKey keys.artifact])
      (call.store.storeArtifact call.staging call.artifact keys ⟨call.store.uri keys.artifact,
        call.store.uri keys.evidenceManifest, call.store.uri keys.completionManifest⟩)
      (fun r w' => w'.SentFor i [call.objectKey keys.artifact] ∧
        (∀ exc, r = .error exc → Origin call keys i w' exc) ∧
        ∀ object, r = .ok object → ∃ plan : ArtifactPlan call, object = plan.object) w := by
  have hempty : ∀ {w' : World ι}, w'.puts.size i = 0 → w'.SentFor i [] := fun hsize n p hp =>
    absurd (Log.lt_size hp) (by rw [hsize]; exact Nat.not_lt_zero n)
  refine MinioBronzeArtifactStore.safe_storeArtifact_of (R := fun exc w' =>
    w'.SentFor i [call.objectKey keys.artifact] ∧ Origin call keys i w' exc) ?_
    (fun exc hspool => ⟨(hempty hw).cons, (LocalFailure.artifactSpool hspool).origin hlocal⟩)
    (fun exc hsnap => ⟨(hempty hw).cons, (LocalFailure.snapshot keys hsnap).origin hlocal⟩)
    fun snapshot hsnap => ?_
  · rintro exc w' ⟨hw', horigin⟩
    refine ⟨fun _ => ⟨hw', ?_, by simp⟩, fun _ => ⟨hw', ?_, by simp⟩⟩
    · rintro _ ⟨⟩ message ⟨⟩
    · rintro _ ⟨⟩
      exact horigin
  let plan : ArtifactPlan call := ⟨keys, hkeys, snapshot, hsnap⟩
  refine System.Safe.mono (safe_assertAbsent (keptQuietly_sentFor i _) keys.toList
    (hempty hw).cons) ?_
  rintro r w₁ ⟨hw₁, hq₁, -, hrefused⟩
  have hsize : w₁.puts.size i = 0 := hq₁.size.trans hw
  refine ⟨fun exc hexc => ⟨hw₁, fun message hmessage => ?_⟩, fun _ => ?_⟩
  · subst hmessage
    cases hrefused _ hexc with
    | occupied key o metadata hk ho _ _ => exact .inspected key hk (.of_fresh hsize ho)
  · refine ⟨fun exc hrewind => ⟨(hempty hsize).cons,
      (LocalFailure.artifactRewind hrewind).origin hlocal⟩, ?_⟩
    have hk : keys.artifact ∈ keys.toList := keys.get_mem .artifact
    refine (safe_putIfAbsent_origin plan.create hk rfl rfl (by simp) (hempty hsize)).mono ?_
    rintro r w₂ ⟨hw₂, herr⟩
    refine ⟨fun exc hexc => ⟨hw₂, herr exc hexc⟩, fun _ => ⟨hw₂, by simp, ?_⟩⟩
    rintro _ ⟨⟩
    exact ⟨plan, rfl⟩

/-- `_write_evidence`, after the artifact. -/
theorem safe_writeEvidence_origin (base : ArtifactPlan call) (hlocal : call.RaisesNoCollision)
    (hw : w.SentFor i [call.objectKey base.keys.artifact]) :
    (storeSystem srv).Safe i
      (fun w => w.SentFor i [call.objectKey base.keys.evidenceManifest,
        call.objectKey base.keys.artifact])
      (call.store.writeEvidence call.staging call.artifact call.evidence base.keys.evidenceManifest)
      (fun r w' => w'.SentFor i [call.objectKey base.keys.evidenceManifest,
          call.objectKey base.keys.artifact] ∧
        (∀ exc, r = .error exc → Origin call base.keys i w' exc) ∧
        ∀ x, r = .ok x → ∃ plan : BundlePlan call,
          x = (plan.evidenceObject, plan.written.totalRecords, plan.written.counts)) w := by
  have hdistinct := base.keys_distinct
  have hne : call.objectKey base.keys.evidenceManifest ∉ [call.objectKey base.keys.artifact] := by
    intro hmem
    exact hdistinct.artifact_evidence (congrArg Prod.snd (List.mem_singleton.mp hmem)).symm
  refine MinioBronzeArtifactStore.safe_writeEvidence_of (R := fun exc w' =>
    w'.SentFor i [call.objectKey base.keys.evidenceManifest, call.objectKey base.keys.artifact] ∧
      Origin call base.keys i w' exc) ?_
    (fun exc hspool => ⟨hw.cons, (LocalFailure.evidenceSpool hspool).origin hlocal⟩)
    (fun exc hspooled => ⟨hw.cons, (LocalFailure.spooled base.keys hspooled).origin hlocal⟩)
    fun written hwritten => ?_
  · rintro exc w' ⟨hw', horigin⟩
    refine ⟨hw', ?_, by simp⟩
    rintro _ ⟨⟩ message hmessage
    exact horigin message (evidenceError_collision hmessage)
  let plan : BundlePlan call := ⟨base, written, hwritten⟩
  refine ⟨fun exc hrewind => ⟨hw.cons, (LocalFailure.evidenceRewind hrewind).origin hlocal⟩, ?_⟩
  have hk : base.keys.evidenceManifest ∈ base.keys.toList := base.keys.get_mem .evidenceManifest
  refine (safe_putIfAbsent_origin plan.evidenceCreate hk rfl rfl hne hw).mono ?_
  rintro r w' ⟨hw', herr⟩
  refine ⟨fun exc hexc => ⟨hw', herr exc hexc⟩, fun _ => ⟨hw', by simp, ?_⟩⟩
  rintro _ ⟨⟩
  exact ⟨plan, rfl⟩

/-- One whole call: if it ends in a collision, it met one. -/
theorem safe_storeBundle_origin (hlocal : call.RaisesNoCollision) (hw : w.puts.size i = 0) :
    (storeSystem srv).Safe i (fun _ => True) call.run
      (fun r w' => ∀ message, r = .error (.objectAlreadyExistsError message) →
        ∃ keys, call.keys = .ok keys ∧ Collided call keys i w') w := by
  unfold BundleCall.run MinioBronzeArtifactStore.storeBundle
  split
  swap
  · rintro message ⟨⟩
  cases hkeys : buildBronzeObjectKeys call.artifact call.store.bronzePrefix with
  | error exc =>
    rintro message hmessage
    -- the key builder has its own errors
    rw [buildBronzeObjectKeys] at hkeys
    split at hkeys
    · split at hkeys <;> cases hkeys
      cases hmessage
    · cases hkeys
      cases hmessage
  | ok keys =>
  have hkeys : call.keys = .ok keys := hkeys
  rw [call.store.targetFor_eq hkeys]
  refine .bind (System.safe_ofExcept.mpr (.bind (System.safe_ofExcept.mpr (.bind ?_))))
  refine ((safe_storeArtifact_origin hlocal hkeys hw).weaken fun _ _ => trivial).mono ?_
  rintro (exc | object) w₁ ⟨hw₁, herr₁, hok₁⟩
  · rintro message ⟨⟩
    exact ⟨keys, hkeys, herr₁ _ rfl message rfl⟩
  obtain ⟨base, rfl⟩ := hok₁ object rfl
  obtain rfl := base.keys_unique hkeys
  refine .bind (((safe_writeEvidence_origin base hlocal hw₁).weaken fun _ _ => trivial).mono ?_)
  rintro (exc | x) w₂ ⟨hw₂, herr₂, hok₂⟩
  · rintro message ⟨⟩
    exact ⟨_, hkeys, herr₂ _ rfl message rfl⟩
  obtain ⟨plan, rfl⟩ := hok₂ x rfl
  obtain rfl := base.eq plan.toArtifactPlan
  -- the marker
  have hk : plan.keys.completionManifest ∈ plan.keys.toList := plan.keys.get_mem .completionManifest
  have hne : call.objectKey plan.keys.completionManifest ∉
      [call.objectKey plan.keys.evidenceManifest, call.objectKey plan.keys.artifact] := by
    intro hmem
    simp only [List.mem_cons, List.not_mem_nil, or_false] at hmem
    rcases hmem with heq | heq
    · exact plan.keys_distinct.evidence_marker (congrArg Prod.snd heq).symm
    · exact plan.keys_distinct.artifact_marker (congrArg Prod.snd heq).symm
  refine .bind (((safe_putIfAbsent_origin plan.markerCreate hk rfl rfl hne hw₂).weaken
    fun _ _ => trivial).mono ?_)
  rintro (exc | u) w₃ ⟨-, herr₃⟩
  · rintro message ⟨⟩
    exact ⟨_, hkeys, herr₃ _ rfl message rfl⟩
  · rintro message ⟨⟩

end Client

/-- A create that reports a collision on a key it had never written to met somebody else's object. -/
theorem Ended.holdsForeign {srv : Server} (hrej : srv.RejectionIsFinal)
    (hocc : srv.PreconditionMeansOccupied) (htruth : TruthfulTo srv i w) {create : CreateCall}
    (haccepted : create.Accepted) {w₁ : World ι} (hfresh : w₁.AllSent i fun r => r.key ≠ create.key)
    {diagnostic : ConditionalPutDiagnostic}
    (hend : Ended maxSinglePutSizeBytes i w₁ create.length create.request create.sha256
      (.error (.conditionalObjectExistsError diagnostic)) w) : w.HoldsForeign i create.key := by
  -- what the call put at this key, this create put there
  have own : ∀ o n, w.objects create.key = some o → o.creator = some (i, n) → ∃ p,
      w.puts.entry i n = some p ∧ p.fate = .landed ∧ w₁.puts.size i ≤ n ∧
      p.request = create.request := by
    intro o n ho hc
    obtain ⟨p, hp, hl, hkey⟩ := w.created _ o i n ho hc
    have hn : w₁.puts.size i ≤ n := by
      by_contra hlt
      obtain ⟨q, hq⟩ := Log.entry_of_lt (Nat.lt_of_not_le hlt)
      obtain ⟨q', hq', hreq, -⟩ := hend.since.puts n q hq
      rw [hp] at hq'; cases hq'
      exact hfresh n q hq (hreq ▸ hkey)
    exact ⟨p, hp, hl, hn, ((hend.failed _ rfl).attempts n p hn hp).1⟩
  cases hend.ending with
  | occupied _ n p answer hn hp hans h412 _ hclean =>
    -- the server saw an object, and every attempt was refused
    have hkey := ((hend.failed _ rfl).attempts n p hn hp).1
    obtain ⟨o, ho⟩ : ∃ o, w.objects create.key = some o := by
      cases answer with
      | error e => exact h412.elim
      | ok response =>
        obtain ⟨fate, occupied, hsrv, -, hsome⟩ := htruth n p response hp hans
        rw [show response.status = 412 from h412] at hsrv
        have hobject := hsome (hocc _ _ hsrv)
        rwa [hkey] at hobject
    refine ⟨o, ho, fun m hc => ?_⟩
    obtain ⟨q, hq, hl, hm, -⟩ := own o m ho hc
    obtain ⟨-, answer', hans', -⟩ := (hend.failed _ rfl).attempts m q hm hq
    have hrefused := htruth.refused hrej hq hans'
      (clientError_of_hasStatus (hclean m q answer' hm hq hans'))
    rw [hl] at hrefused; cases hrefused
  | conflict _ o ho hno _ =>
    refine ⟨o, ho, fun m hc => hno ?_⟩
    obtain ⟨q, hq, hl, -, hreq⟩ := own o m ho hc
    obtain ⟨hobject, hm⟩ := haccepted.landed hq hl hreq
    rw [show w.objects create.key = some o from ho] at hobject
    obtain rfl := Option.some.inj hobject
    exact hm

/-- A key is only ever of one run. -/
theorem run_of_key {call call' : BundleCall} {keys keys' : BronzeObjectKeys} {key : String}
    (hkeys : call.keys = .ok keys) (hkeys' : call'.keys = .ok keys') (hk : key ∈ keys.toList)
    (hk' : key ∈ keys'.toList) :
    call.artifact.ingestionRunId = call'.artifact.ingestionRunId := by
  obtain ⟨kind, rfl⟩ := BronzeObjectKeys.exists_kind hk
  obtain ⟨kind', heq⟩ := BronzeObjectKeys.exists_kind hk'
  obtain ⟨retrieved, -, rfl⟩ := buildBronzeObjectKeys_ok hkeys
  obtain ⟨retrieved', -, rfl⟩ := buildBronzeObjectKeys_ok hkeys'
  exact (bundleSegments_injective (key_injective heq).2.1).2.2

/-- No other call with keys has the run of this one. -/
def OwnRun (call : ι → BundleCall) (i : ι) : Prop :=
  ∀ j keys, (call j).keys = .ok keys →
    (call j).artifact.ingestionRunId = (call i).artifact.ingestionRunId → j = i

section Runs

variable [DecidableEq ι] {srv : Server} {call : ι → BundleCall}
  {objects : ObjectKey → Option (Bytes × List (String × String))}
  {c c' : Config ι httpSignature (World ι) Exc BronzeBundleReceipt}

section Reached

variable (hr : (storeSystem srv).Reachable ⟨World.initial objects, fun i => (call i).run⟩ c)

include hr

theorem collided_of_reachable {i : ι} (hlocal : (call i).RaisesNoCollision) {message : String}
    (hraise : c.procs i = .raise (.objectAlreadyExistsError message)) :
    ∃ keys, (call i).keys = .ok keys ∧ Collided (call i) keys i c.shared := by
  have hguarded : (storeSystem srv).Guarded i (fun _ => True)
      (fun r w => ∀ message, r = .error (.objectAlreadyExistsError message) →
        ∃ keys, (call i).keys = .ok keys ∧ Collided (call i) keys i w) c :=
    hr.safe (fun _ _ _ _ => trivial) trivial (safe_storeBundle_origin hlocal rfl)
  refine hguarded.post (fun w w' hrely h message hmessage => ?_) (by rw [hraise]; rfl) message rfl
  obtain ⟨keys, hkeys, hcollided⟩ := h message hmessage
  exact ⟨keys, hkeys, hcollided.rely hrely⟩

/-- The object a call collides with is not its own. -/
theorem holdsForeign_of_collision (hrej : srv.RejectionIsFinal)
    (hocc : srv.PreconditionMeansOccupied) {i : ι} (hlocal : (call i).RaisesNoCollision)
    {message : String} (hraise : c.procs i = .raise (.objectAlreadyExistsError message)) :
    ∃ keys, (call i).keys = .ok keys ∧ ∃ key ∈ keys.toList,
      c.shared.HoldsForeign i ((call i).objectKey key) := by
  obtain ⟨keys, hkeys, hcollided⟩ := collided_of_reachable hr hlocal hraise
  refine ⟨keys, hkeys, ?_⟩
  cases hcollided with
  | inspected key hk hforeign => exact ⟨key, hk, hforeign⟩
  | created create key w₁ diagnostic hk hkey ha hfresh hend =>
    exact ⟨key, hk, hkey ▸ hend.holdsForeign hrej hocc (truthfulTo_reachable hr i) ha hfresh⟩

/-- Calls for different runs have no key in common, so what one of them did not create itself was
    there from the start. -/
theorem initial_of_holdsForeign (hother : srv.NoOtherWriter) {i : ι} {keys : BronzeObjectKeys}
    (hkeys : (call i).keys = .ok keys)
    (hruns : ∀ j, j ≠ i → (call j).artifact.ingestionRunId ≠ (call i).artifact.ingestionRunId)
    {key : String} (hk : key ∈ keys.toList)
    (h : c.shared.HoldsForeign i ((call i).objectKey key)) :
    objects ((call i).objectKey key) ≠ none := by
  obtain ⟨o, ho, hnot⟩ := h
  cases hc : o.creator with
  | none => exact initial_of_no_creator hr hother _ o ho hc
  | some creator =>
    obtain ⟨j, n⟩ := creator
    have hij : j ≠ i := by
      rintro rfl
      exact hnot n hc
    obtain ⟨keys', hkeys', key', hk', heq⟩ := key_of_creator hr ho hc
    obtain rfl : key = key' := congrArg Prod.snd heq
    exact absurd (run_of_key hkeys' hkeys hk' hk) (hruns j hij)

/-- A call that returned has created whatever is under its keys. -/
theorem own_of_returned (hother : srv.NoOtherWriter) {i : ι} (hown : OwnRun call i)
    {receipt : BronzeBundleReceipt} (hret : c.procs i = .ret receipt) :
    ∃ plan : BundlePlan (call i), receipt = plan.receipt ∧ ∀ key ∈ plan.keys.toList, ∀ o,
      c.shared.objects ((call i).objectKey key) = some o → ∃ n, o.creator = some (i, n) := by
  have houtcome : (c.procs i).outcome = some (.ok receipt) := by rw [hret]; rfl
  cases bundleEnding_of_reachable hr houtcome with
  | committed plan _ _ _ hfree =>
    refine ⟨plan, rfl, ?_⟩
    intro key hkey o ho
    cases hc : o.creator with
    | none =>
      have hstart : objects ((call i).objectKey key) = none :=
        Option.map_eq_none_iff.mp (hfree key hkey)
      exact absurd hstart (initial_of_no_creator hr hother _ o ho hc)
    | some creator =>
      obtain ⟨j, n⟩ := creator
      obtain ⟨keys, hkeys, name, hname, heq⟩ := key_of_creator hr ho hc
      obtain rfl : key = name := congrArg Prod.snd heq
      obtain rfl := hown j keys hkeys (run_of_key hkeys plan.keys_eq hname hkey)
      exact ⟨n, rfl⟩

/-- A collision is with an object that the call did not create; without other writers, a call with a
    run id of its own collides only with what was in the store at the start. -/
theorem storeBundle_collision_not_own (hrej : srv.RejectionIsFinal)
    (hocc : srv.PreconditionMeansOccupied) {i : ι} (hlocal : (call i).RaisesNoCollision)
    {message : String} (hraise : c.procs i = .raise (.objectAlreadyExistsError message)) :
    ∃ keys, (call i).keys = .ok keys ∧ ∃ key ∈ keys.toList,
      c.shared.HoldsForeign i ((call i).objectKey key) ∧
      (srv.NoOtherWriter →
        (∀ j, j ≠ i → (call j).artifact.ingestionRunId ≠ (call i).artifact.ingestionRunId) →
        objects ((call i).objectKey key) ≠ none) := by
  obtain ⟨keys, hkeys, key, hk, hforeign⟩ := holdsForeign_of_collision hr hrej hocc hlocal hraise
  refine ⟨keys, hkeys, key, hk, hforeign, fun hother hruns => ?_⟩
  exact initial_of_holdsForeign hr hother hkeys hruns hk hforeign

/-- Whatever the other calls have done, a call that has not started, with a run id of its own and keys
    that were free at the start, can still commit while all others stand still. -/
theorem fresh_run_commits (hsrv : srv.answers 200 .landed true) (hother : srv.NoOtherWriter) {i : ι}
    (hw : Waiting call c i) {plan : BundlePlan (call i)} (hready : plan.Ready)
    (hruns : ∀ j, j ≠ i → (call j).artifact.ingestionRunId ≠ (call i).artifact.ingestionRunId)
    (hstart : ∀ key ∈ plan.keys.toList, objects ((call i).objectKey key) = none) :
    ∃ c', (storeSystem srv).Reachable c c' ∧ c'.procs i = .ret plan.receipt ∧
      (∀ j, j ≠ i → c'.procs j = c.procs j) ∧
      ∃ o, c'.shared.objects plan.markerCreate.key = some o ∧ ∃ n, o.creator = some (i, n) := by
  have hfree : ∀ key ∈ plan.keys.toList, c.shared.objects ((call i).objectKey key) = none := by
    intro key hk
    cases ho : c.shared.objects ((call i).objectKey key) with
    | none => rfl
    | some o =>
      exact absurd (hstart key hk) (initial_of_holdsForeign hr hother plan.keys_eq hruns hk
        (.of_fresh hw.size ho))
  obtain ⟨w', hrun, hl⟩ := runs_storeBundle_committed (i := i) hsrv hready hfree
  refine ⟨_, hrun.reachable hw.proc .refl, ?_, fun j hij => ?_, _, hl.marker, _, rfl⟩
  · dsimp only
    rw [Function.update_self]; rfl
  · dsimp only
    rw [Function.update_of_ne hij]

end Reached

end Runs

theorem sampleBundle_raisesNoCollision (run : UUID) (extension : SafeExtension) :
    (sampleBundleOf run extension none).RaisesNoCollision := by
  intro message h
  cases h with
  | artifactSpool h => cases h
  | snapshot keys h =>
    have hok : (sampleBundleOf run extension none).snapshot keys = .ok (.ofBytes sampleBytes) := rfl
    rw [hok] at h; cases h
  | artifactRewind h => cases h
  | evidenceSpool h => cases h
  | evidenceRewind h => cases h
  | spooled keys h =>
    have hok : (sampleBundleOf run extension none).spooled keys = .ok (.ofItems (sampleEvidence run)) :=
      spoolEvidence_complete rfl (sampleEvidence_coherent run extension) (fun _ => rfl)
        (sampleEvidence_accepted run)
    rw [hok] at h; cases h

/-- The sample call, on a store that has an object at its artifact key. -/
theorem storeBundle_collision_not_own_sample :
    ∃ c : Config Unit httpSignature (World Unit) Exc BronzeBundleReceipt,
      (storeSystem Server.strict).Reachable ⟨World.initial (sampleOccupied []),
        fun _ => (sampleBundle csv none).run⟩ c ∧
      ∃ key, c.shared.HoldsForeign () ("lake", key) ∧ sampleOccupied [] ("lake", key) ≠ none := by
  obtain ⟨c, hr, ho, -⟩ := sample_occupied []
  obtain ⟨keys, -, key, -, hforeign, hinitial⟩ := storeBundle_collision_not_own hr
    Server.strict_rejectionIsFinal Server.strict_preconditionMeansOccupied
    (sampleBundle_raisesNoCollision sampleId csv) ((Program.outcome_eq_error _ _).mp ho)
  exact ⟨c, hr, key, hforeign, hinitial Server.strict_noOtherWriter fun j hj => absurd rfl hj⟩

/-- The other sample run has committed and this one has not started: it can commit too. -/
theorem fresh_run_commits_sample :
    ∃ c c' : Config Bool httpSignature (World Bool) Exc BronzeBundleReceipt,
      (storeSystem Server.strict).Reachable ⟨World.initial fun _ => none,
        fun b => (sampleParty b).run⟩ c ∧ Waiting sampleParty c true ∧
      c.procs false = .ret (samplePartyPlan false).receipt ∧
      (storeSystem Server.strict).Reachable c c' ∧
      ∀ b, c'.procs b = .ret (samplePartyPlan b).receipt := by
  obtain ⟨w, hrun, -⟩ := runs_storeBundle_committed (i := false) (w := World.initial fun _ => none)
    Server.strict_grants (samplePartyPlan_ready false) fun _ _ => rfl
  have hr : (storeSystem Server.strict).Reachable
      ⟨World.initial fun _ => none, fun b => (sampleParty b).run⟩
      ⟨w, Function.update (fun b => (sampleParty b).run) false
        (.ret (samplePartyPlan false).receipt)⟩ := hrun.reachable rfl .refl
  have hwaiting : Waiting sampleParty ⟨w, Function.update (fun b => (sampleParty b).run) false
      (.ret (samplePartyPlan false).receipt)⟩ true :=
    ⟨by simp, (hrun.rely (j := true) (by decide)).putSize⟩
  obtain ⟨c', hr', hret, hothers, -⟩ := fresh_run_commits hr Server.strict_grants
    Server.strict_noOtherWriter hwaiting (samplePartyPlan_ready true) (by decide) fun _ _ => rfl
  refine ⟨_, c', hr, hwaiting, by simp, hr', fun b => ?_⟩
  cases b with
  | true => exact hret
  | false => exact (hothers false (by decide)).trans (by simp)

end EvidenceCartographer.Infrastructure
