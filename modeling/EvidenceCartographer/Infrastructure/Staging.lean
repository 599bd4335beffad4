import EvidenceCartographer.Domain.Rendering
import EvidenceCartographer.Infrastructure.MinioBronze

/-! What the two staging loops leave in their spools.

    Each loop keeps several accumulators at once: the spool and its position, a size, a digest, and
    for the evidence the counts and the total. `Snapshot.Of` and `EvidenceSpool.Of` say that all of
    them describe one byte string, and one item list; a step lemma and a run lemma prove it. -/

namespace EvidenceCartographer.Infrastructure

open Python Domain Application

/-- The bytes the reads of a file give, up to its end or to an exception. -/
def chunksRead : List (Except Exc Bytes) → Bytes
  | [] => []
  | .error _ :: _ => []
  | .ok [] :: _ => []
  | .ok (byte :: bytes) :: reads => byte :: bytes ++ chunksRead reads

/-- The reads of a file came to its end, and not to an exception. -/
def ReadToEnd : List (Except Exc Bytes) → Prop
  | [] => True
  | .error _ :: _ => False
  | .ok [] :: _ => True
  | .ok (_ :: _) :: reads => ReadToEnd reads

/-- Chunks with at least one byte each are all read. -/
theorem chunksRead_append {chunks : List Bytes} (h : [] ∉ chunks) (reads : List (Except Exc Bytes)) :
    chunksRead (chunks.map .ok ++ reads) = chunks.flatten ++ chunksRead reads := by
  induction chunks with
  | nil => rfl
  | cons chunk chunks ih =>
    obtain ⟨hne, hrest⟩ := not_or.mp (List.mem_cons.not.mp h)
    obtain ⟨byte, bytes, rfl⟩ := List.exists_cons_of_ne_nil (Ne.symm hne)
    simp [chunksRead, ih hrest]

theorem readToEnd_append {chunks : List Bytes} (h : [] ∉ chunks) {reads : List (Except Exc Bytes)} :
    ReadToEnd (chunks.map .ok ++ reads) ↔ ReadToEnd reads := by
  induction chunks with
  | nil => rfl
  | cons chunk chunks ih =>
    obtain ⟨hne, hrest⟩ := not_or.mp (List.mem_cons.not.mp h)
    obtain ⟨byte, bytes, rfl⟩ := List.exists_cons_of_ne_nil (Ne.symm hne)
    exact ih hrest

/-- Writing at the end of a stream appends. -/
theorem Stream.write_end {data : Stream} (h : data.position = data.content.length) (bytes : Bytes) :
    data.write bytes = ⟨data.content ++ bytes, (data.content ++ bytes).length⟩ := by
  rw [Stream.write, h, List.take_length, List.drop_eq_nil_of_le (by omega), List.append_nil,
    List.length_append]

/-- Every accumulator of the snapshot describes these bytes. -/
structure Snapshot.Of (s : Snapshot) (bytes : Bytes) : Prop where
  content : s.spool.content = bytes
  position : s.spool.position = s.spool.content.length
  size : s.sizeBytes = bytes.length
  digest : s.digest.fed = bytes

theorem Snapshot.Of.empty : Snapshot.empty.Of [] := ⟨rfl, rfl, rfl, rfl⟩

theorem Snapshot.Of.chunk {s : Snapshot} {bytes : Bytes} (h : s.Of bytes) (chunk : Bytes) :
    Snapshot.Of ⟨s.spool.write chunk, s.sizeBytes + chunk.length, s.digest.update chunk⟩
      (bytes ++ chunk) := by
  rw [Stream.write_end h.position]
  refine ⟨by rw [h.content], rfl, ?_, ?_⟩
  · show s.sizeBytes + chunk.length = _
    rw [h.size, List.length_append]
  · rw [Digest.update_fed, h.digest]

/-- By induction on the reads. -/
theorem snapshotChunks_ok {ceiling : Nat} {uri : String} {faults : SpoolFaults}
    {reads : List (Except Exc Bytes)} {s s' : Snapshot} {bytes : Bytes} (h : s.Of bytes)
    (hok : snapshotChunks ceiling uri faults reads s = .ok s') :
    s'.Of (bytes ++ chunksRead reads) ∧ ReadToEnd reads := by
  induction reads generalizing s bytes with
  | nil =>
    cases hok
    rw [chunksRead, List.append_nil]; exact ⟨h, trivial⟩
  | cons read reads ih =>
    rcases read with exc | (_ | ⟨byte, chunk⟩)
    · cases hok
    · cases hok
      rw [chunksRead, List.append_nil]; exact ⟨h, trivial⟩
    · simp only [snapshotChunks] at hok
      split at hok
      · cases hok
      split at hok
      · cases hok
      · rw [chunksRead, ← List.append_assoc]
        exact ih (h.chunk (byte :: chunk)) hok

/-- A snapshot that was taken is of the bytes read, with the digest asked for. -/
theorem snapshotArtifact_ok {ceiling : Nat} {artifact : BronzeArtifact} {uri : String}
    {staging : Staging} {s : Snapshot} (hok : snapshotArtifact ceiling artifact uri staging = .ok s) :
    s.Of (chunksRead staging.file.reads) ∧ ReadToEnd staging.file.reads ∧
      ∀ expected, artifact.expectedSha256 = some expected →
        sha256 (chunksRead staging.file.reads) = expected := by
  simp only [snapshotArtifact, bind, Except.bind] at hok
  split at hok
  · cases hok
  rename_i s₁ hs₁
  obtain ⟨hof, hend⟩ := snapshotChunks_ok Snapshot.Of.empty hs₁
  rw [List.nil_append] at hof
  cases he : artifact.expectedSha256 with
  | none =>
    rw [he] at hok; cases hok
    exact ⟨hof, hend, by simp⟩
  | some expected =>
    simp only [he] at hok
    split at hok
    · rename_i heq
      cases hok
      refine ⟨hof, hend, ?_⟩
      rintro _ ⟨⟩
      rw [← heq, Digest.hexdigest, hof.digest]
    · cases hok

/-- The loop stops before the ceiling is passed. -/
theorem snapshotChunks_fits {ceiling : Nat} {uri : String} {faults : SpoolFaults}
    {reads : List (Except Exc Bytes)} {s s' : Snapshot} (hsize : s.sizeBytes ≤ ceiling)
    (hok : snapshotChunks ceiling uri faults reads s = .ok s') : s'.sizeBytes ≤ ceiling := by
  induction reads generalizing s with
  | nil => cases hok; exact hsize
  | cons read reads ih =>
    rcases read with exc | (_ | ⟨byte, chunk⟩)
    · cases hok
    · cases hok; exact hsize
    · simp only [snapshotChunks] at hok
      split at hok
      · cases hok
      rename_i hroom
      split at hok
      · cases hok
      · exact ih (Nat.le_of_not_lt hroom) hok

theorem snapshotArtifact_fits {ceiling : Nat} {artifact : BronzeArtifact} {uri : String}
    {staging : Staging} {s : Snapshot} (hok : snapshotArtifact ceiling artifact uri staging = .ok s) :
    (chunksRead staging.file.reads).length ≤ ceiling := by
  have hof := (snapshotArtifact_ok hok).1
  simp only [snapshotArtifact, bind, Except.bind] at hok
  split at hok
  · cases hok
  rename_i s₁ hs₁
  have hfits := snapshotChunks_fits (Nat.zero_le ceiling) hs₁
  have heq : s = s₁ := by
    split at hok
    · exact (Except.ok.inj hok).symm
    · split at hok
      · exact (Except.ok.inj hok).symm
      · cases hok
  rw [← hof.size, heq]
  exact hfits

/-- The snapshot of these bytes. -/
def Snapshot.ofBytes (bytes : Bytes) : Snapshot := ⟨⟨bytes, bytes.length⟩, bytes.length, ⟨bytes⟩⟩

theorem Snapshot.Of.eq {s : Snapshot} {bytes : Bytes} (h : s.Of bytes) : s = .ofBytes bytes := by
  obtain ⟨⟨content, position⟩, sizeBytes, ⟨fed⟩⟩ := s
  obtain ⟨hcontent, hposition, hsize, hdigest⟩ := h
  dsimp only at hcontent hposition hsize hdigest
  subst hcontent
  rw [Snapshot.ofBytes, hposition, hsize, hdigest]

/-- By induction on the reads: nothing stops the loop but an exception, a fault or the ceiling. -/
theorem snapshotChunks_complete {ceiling : Nat} (uri : String) {faults : SpoolFaults}
    {reads : List (Except Exc Bytes)} {s : Snapshot} {bytes : Bytes} (h : s.Of bytes)
    (hend : ReadToEnd reads) (hfaults : ∀ n, faults.write n = none)
    (hfit : (bytes ++ chunksRead reads).length ≤ ceiling) :
    ∃ s', snapshotChunks ceiling uri faults reads s = .ok s' := by
  induction reads generalizing s bytes with
  | nil => exact ⟨s, rfl⟩
  | cons read reads ih =>
    rcases read with exc | (_ | ⟨byte, chunk⟩)
    · exact hend.elim
    · exact ⟨s, rfl⟩
    · rw [chunksRead, ← List.append_assoc] at hfit
      have hroom : ¬ ceiling < s.sizeBytes + (byte :: chunk).length := by
        rw [List.length_append, List.length_append] at hfit
        rw [h.size]
        omega
      simp only [snapshotChunks, if_neg hroom, hfaults]
      exact ih (h.chunk (byte :: chunk)) hend hfit

theorem snapshotArtifact_complete {ceiling : Nat} {artifact : BronzeArtifact} {uri : String}
    {staging : Staging} (hend : ReadToEnd staging.file.reads)
    (hfaults : ∀ n, staging.artifactSpool.write n = none)
    (hfit : (chunksRead staging.file.reads).length ≤ ceiling)
    (hsha : ∀ expected, artifact.expectedSha256 = some expected →
      sha256 (chunksRead staging.file.reads) = expected) :
    snapshotArtifact ceiling artifact uri staging =
      .ok (.ofBytes (chunksRead staging.file.reads)) := by
  obtain ⟨s, hs⟩ := snapshotChunks_complete uri Snapshot.Of.empty hend hfaults hfit
  obtain ⟨hof, -⟩ := snapshotChunks_ok Snapshot.Of.empty hs
  rw [List.nil_append] at hof
  have hdigest : s.digest.hexdigest = sha256 (chunksRead staging.file.reads) := by
    rw [Digest.hexdigest, hof.digest]
  simp only [snapshotArtifact, hs, bind, Except.bind]
  cases hexpected : artifact.expectedSha256 with
  | none => rw [← hof.eq]; rfl
  | some expected =>
    dsimp only
    rw [hdigest, if_pos (hsha expected hexpected), ← hof.eq]; rfl

/-- Past the ceiling the loop stops, at the first chunk that does not fit. -/
theorem snapshotChunks_tooLarge {ceiling : Nat} (uri : String) {faults : SpoolFaults}
    {reads : List (Except Exc Bytes)} {s : Snapshot} {bytes : Bytes} (h : s.Of bytes)
    (hend : ReadToEnd reads) (hfaults : ∀ n, faults.write n = none) (hfit : bytes.length ≤ ceiling)
    (hlarge : ceiling < (bytes ++ chunksRead reads).length) : ∃ size, ceiling < size ∧
      snapshotChunks ceiling uri faults reads s =
        .error (.singlePutSizeLimitError uri size ceiling) := by
  induction reads generalizing s bytes with
  | nil =>
    rw [chunksRead, List.append_nil] at hlarge
    omega
  | cons read reads ih =>
    rcases read with exc | (_ | ⟨byte, chunk⟩)
    · exact hend.elim
    · rw [chunksRead, List.append_nil] at hlarge
      omega
    · rw [chunksRead, ← List.append_assoc] at hlarge
      by_cases hroom : ceiling < s.sizeBytes + (byte :: chunk).length
      · exact ⟨_, hroom, by simp only [snapshotChunks, if_pos hroom]⟩
      · have hfit' : (bytes ++ byte :: chunk).length ≤ ceiling := by
          rw [List.length_append, ← h.size]
          omega
        obtain ⟨size, hsize, heq⟩ := ih (h.chunk (byte :: chunk)) hend hfit' hlarge
        refine ⟨size, hsize, ?_⟩
        simp only [snapshotChunks, if_neg hroom, hfaults]
        exact heq

theorem snapshotArtifact_tooLarge {ceiling : Nat} (artifact : BronzeArtifact) (uri : String)
    {staging : Staging} (hend : ReadToEnd staging.file.reads)
    (hfaults : ∀ n, staging.artifactSpool.write n = none)
    (hlarge : ceiling < (chunksRead staging.file.reads).length) : ∃ size, ceiling < size ∧
      snapshotArtifact ceiling artifact uri staging =
        .error (.singlePutSizeLimitError uri size ceiling) := by
  obtain ⟨size, hsize, heq⟩ := snapshotChunks_tooLarge uri Snapshot.Of.empty hend hfaults
    (Nat.zero_le ceiling) hlarge
  refine ⟨size, hsize, ?_⟩
  simp only [snapshotArtifact, heq, bind, Except.bind]

/-- The item belongs to the artifact, and its two outcomes agree. -/
structure Coherent (artifact : BronzeArtifact) (item : BronzeRecordEvidence) : Prop where
  source : item.provenance.source = artifact.source
  run : item.provenance.ingestionRunId = artifact.ingestionRunId
  contract : item.provenance.contractVersion = artifact.contractVersion
  outcome : item.provenance.outcome = item.result.outcome

theorem validateEvidence_ok {artifact : BronzeArtifact} {item : BronzeRecordEvidence} :
    validateEvidence artifact item = .ok () ↔ Coherent artifact item := by
  constructor
  · intro h
    simp only [validateEvidence] at h
    split at h <;> try cases h
    split at h <;> try cases h
    split at h <;> try cases h
    split at h <;> try cases h
    rename_i h₁ h₂ h₃ h₄
    exact ⟨of_not_not h₁, of_not_not h₂, of_not_not h₃, of_not_not h₄⟩
  · rintro ⟨h₁, h₂, h₃, h₄⟩
    simp [validateEvidence, h₁, h₂, h₃, h₄]

theorem length_canonicalJson_le (value : Json) : (canonicalJson value).length ≤ 4 * value.width := by
  have hdumps := Json.length_dumps_le value
  have hencode := length_encodeUtf8_le value.dumps
  rw [canonicalJson]
  omega

theorem length_lt_length_canonicalJson {key : String} {value : Json} {fields : List (String × Json)}
    (h : (key, value) ∈ fields) :
    key.toList.length + value.dumps.length < (canonicalJson (.obj fields)).length := by
  rw [canonicalJson]
  exact (Json.length_lt_length_dumps h).trans_le (length_le_length_encodeUtf8 _)

theorem length_evidenceLines_le {items : List BronzeRecordEvidence} (bound : Nat)
    (h : ∀ item ∈ items, item.modelDump.width ≤ bound) :
    (items.flatMap evidenceLine).length ≤ items.length * (4 * bound + 1) := by
  induction items with
  | nil => simp
  | cons item items ih =>
    have hjson := length_canonicalJson_le item.modelDump
    have hwidth := h item (List.mem_cons_self ..)
    have hrest := ih fun item hitem => h item (List.mem_cons_of_mem _ hitem)
    rw [List.flatMap_cons, List.length_append, evidenceLine, List.length_append,
      List.length_singleton, List.length_cons, Nat.succ_mul]
    omega

theorem newline_not_mem_canonicalJson (value : Json) : (0x0a : UInt8) ∉ canonicalJson value := by
  rw [canonicalJson]
  exact newline_not_mem_encodeUtf8 (Json.newline_not_mem_dumps value)

/-- Each item is one line. -/
theorem count_evidenceLine (item : BronzeRecordEvidence) : (evidenceLine item).count 0x0a = 1 := by
  rw [evidenceLine, List.count_append,
    List.count_eq_zero_of_not_mem (newline_not_mem_canonicalJson _)]
  rfl

theorem count_evidenceLines (items : List BronzeRecordEvidence) :
    (items.flatMap evidenceLine).count 0x0a = items.length := by
  induction items with
  | nil => rfl
  | cons item items ih =>
    rw [List.flatMap_cons, List.count_append, count_evidenceLine, ih, List.length_cons,
      Nat.add_comm]

/-- What is not coherent is refused, always in the same class. -/
theorem validateEvidence_error {artifact : BronzeArtifact} {item : BronzeRecordEvidence}
    (h : ¬ Coherent artifact item) :
    ∃ message, validateEvidence artifact item = .error (.manifestSerializationError message) := by
  simp only [validateEvidence]
  split
  · exact ⟨_, rfl⟩
  split
  · exact ⟨_, rfl⟩
  split
  · exact ⟨_, rfl⟩
  split
  · exact ⟨_, rfl⟩
  · rename_i h₁ h₂ h₃ h₄
    exact absurd ⟨of_not_not h₁, of_not_not h₂, of_not_not h₃, of_not_not h₄⟩ h

/-- How many items have this outcome, in the result and in the provenance alike. -/
def outcomeCount (items : List BronzeRecordEvidence) (outcome : ContractOutcome) : Nat :=
  items.countP fun item => item.result.outcome = outcome ∧ item.provenance.outcome = outcome

/-- Every accumulator of the evidence spool describes these items, each of them coherent. -/
structure EvidenceSpool.Of (s : EvidenceSpool) (artifact : BronzeArtifact)
    (items : List BronzeRecordEvidence) : Prop where
  content : s.spool.content = items.flatMap evidenceLine
  position : s.spool.position = s.spool.content.length
  digest : s.digest.fed = items.flatMap evidenceLine
  counts : s.counts = outcomeCount items
  total : s.totalRecords = items.length
  coherent : ∀ item ∈ items, Coherent artifact item

theorem EvidenceSpool.Of.empty (artifact : BronzeArtifact) : EvidenceSpool.empty.Of artifact [] :=
  ⟨rfl, rfl, rfl, rfl, rfl, by simp⟩

theorem outcomeCount_concat (items : List BronzeRecordEvidence) {item : BronzeRecordEvidence}
    (h : item.provenance.outcome = item.result.outcome) :
    outcomeCount (items ++ [item]) =
      Function.update (outcomeCount items) item.result.outcome
        (outcomeCount items item.result.outcome + 1) := by
  funext outcome
  by_cases ho : item.result.outcome = outcome
  · subst ho
    rw [Function.update_self]
    simp [outcomeCount, h]
  · rw [Function.update_of_ne (Ne.symm ho)]
    simp [outcomeCount, ho]

/-- The outcomes are all counted. -/
theorem outcomeCount_sum {items : List BronzeRecordEvidence}
    (h : ∀ item ∈ items, item.provenance.outcome = item.result.outcome) :
    (ContractOutcome.members.map (outcomeCount items)).sum = items.length := by
  induction items with
  | nil => rfl
  | cons item items ih =>
    have hi := h item (by simp)
    have ih := ih fun x hx => h x (by simp [hx])
    simp only [ContractOutcome.members, List.map_cons, List.map_nil, List.sum_cons, List.sum_nil,
      outcomeCount, List.countP_cons, hi, Bool.decide_and] at ih ⊢
    cases item.result.outcome <;> simp <;> omega

/-- One step of the loop. -/
theorem spoolItem_ok {ceiling : Nat} {artifact : BronzeArtifact} {uri : String}
    {faults : SpoolFaults} {s s' : EvidenceSpool} {items : List BronzeRecordEvidence}
    {item : BronzeRecordEvidence} (h : s.Of artifact items)
    (hok : spoolItem ceiling artifact uri faults s item = .ok s') :
    s'.Of artifact (items ++ [item]) := by
  simp only [spoolItem, bind, Except.bind] at hok
  split at hok
  · cases hok
  rename_i hvalid
  have hcoherent := validateEvidence_ok.mp hvalid
  split at hok
  · cases hok
  split at hok
  · cases hok
  cases hok
  have hline : (items ++ [item]).flatMap evidenceLine =
      items.flatMap evidenceLine ++ evidenceLine item := by simp
  refine ⟨?_, ?_, ?_, ?_, ?_, ?_⟩
  · rw [Stream.write_end h.position, h.content, hline]
  · rw [Stream.write_end h.position]
  · rw [Digest.update_fed, h.digest, hline]
  · rw [outcomeCount_concat items hcoherent.outcome, h.counts]
  · rw [List.length_append, h.total]; rfl
  · intro x hx
    rcases List.mem_append.mp hx with hx | hx
    · exact h.coherent x hx
    · rw [List.mem_singleton.mp hx]; exact hcoherent

/-- The loop over any further items. -/
theorem spoolItems_ok {ceiling : Nat} {artifact : BronzeArtifact} {uri : String}
    {faults : SpoolFaults} {s s' : EvidenceSpool} {items more : List BronzeRecordEvidence}
    (h : s.Of artifact items)
    (hok : more.foldlM (spoolItem ceiling artifact uri faults) s = .ok s') :
    s'.Of artifact (items ++ more) := by
  induction more generalizing s items with
  | nil =>
    cases hok
    rw [List.append_nil]; exact h
  | cons item more ih =>
    simp only [List.foldlM_cons, bind, Except.bind] at hok
    split at hok
    · cases hok
    · rename_i s₁ hs₁
      rw [show items ++ item :: more = (items ++ [item]) ++ more by simp]
      exact ih (spoolItem_ok h hs₁) hok

/-- What the loop leaves, as a fold. -/
theorem spoolItems_result (ceiling : Nat) (artifact : BronzeArtifact) (uri : String)
    (faults : SpoolFaults) (s : EvidenceSpool) (items : List BronzeRecordEvidence) :
    (spoolItems ceiling artifact uri faults s items).result =
      items.foldlM (spoolItem ceiling artifact uri faults) s := by
  induction items generalizing s with
  | nil => rfl
  | cons item items ih =>
    rw [spoolItems, List.foldlM_cons]
    cases spoolItem ceiling artifact uri faults s item with
    | error exc => rfl
    | ok s' => exact ih s'

theorem spoolEvidence_eq (ceiling : Nat) (artifact : BronzeArtifact) (uri : String)
    (faults : SpoolFaults) (evidence : EvidenceIterable) :
    spoolEvidence ceiling artifact uri faults evidence = (do
      let s ← evidence.items.foldlM (spoolItem ceiling artifact uri faults) .empty
      match evidence.ending with
      | some exc => throw exc
      | none => return s) := by
  rw [← spoolItems_result, spoolEvidence, spoolLoop]
  cases hresult : (spoolItems ceiling artifact uri faults .empty evidence.items).result with
  | error exc => simp only [hresult]; rfl
  | ok s => cases evidence.ending <;> simp only [hresult] <;> rfl

/-- Where the items are not enough to stop the loop, its end does not matter for what it takes. -/
theorem spoolLoop_pulled (ceiling : Nat) (artifact : BronzeArtifact) (uri : String)
    (faults : SpoolFaults) (evidence : EvidenceIterable) :
    (spoolLoop ceiling artifact uri faults evidence).pulled =
      (spoolItems ceiling artifact uri faults .empty evidence.items).pulled := by
  unfold spoolLoop
  dsimp only
  split <;> rfl

/-- Evidence that was spooled: the iterator ended normally, and the spool is of all its items. -/
theorem spoolEvidence_ok {ceiling : Nat} {artifact : BronzeArtifact} {uri : String}
    {faults : SpoolFaults} {evidence : EvidenceIterable} {s : EvidenceSpool}
    (hok : spoolEvidence ceiling artifact uri faults evidence = .ok s) :
    evidence.ending = none ∧ s.Of artifact evidence.items := by
  rw [spoolEvidence_eq] at hok
  simp only [bind, Except.bind] at hok
  split at hok
  · cases hok
  rename_i s₁ hs₁
  have hof := spoolItems_ok (EvidenceSpool.Of.empty artifact) hs₁
  cases he : evidence.ending with
  | some exc => rw [he] at hok; cases hok
  | none =>
    rw [he] at hok; cases hok
    exact ⟨rfl, hof⟩

/-- The spool of these items. -/
def EvidenceSpool.ofItems (items : List BronzeRecordEvidence) : EvidenceSpool where
  spool := ⟨items.flatMap evidenceLine, (items.flatMap evidenceLine).length⟩
  digest := ⟨items.flatMap evidenceLine⟩
  counts := outcomeCount items
  totalRecords := items.length

theorem EvidenceSpool.Of.eq {s : EvidenceSpool} {artifact : BronzeArtifact}
    {items : List BronzeRecordEvidence} (h : s.Of artifact items) : s = .ofItems items := by
  obtain ⟨⟨content, position⟩, ⟨fed⟩, counts, totalRecords⟩ := s
  obtain ⟨hcontent, hposition, hdigest, hcounts, htotal, -⟩ := h
  dsimp only at hcontent hposition hdigest hcounts htotal
  subst hcontent
  rw [EvidenceSpool.ofItems, hposition, hdigest, hcounts, htotal]

/-- An item that fits is spooled, and one that does not is refused. -/
theorem spoolItem_eq (ceiling : Nat) {artifact : BronzeArtifact} (uri : String)
    {faults : SpoolFaults} {s : EvidenceSpool} {items : List BronzeRecordEvidence}
    {item : BronzeRecordEvidence} (h : s.Of artifact items) (hcoherent : Coherent artifact item)
    (hfaults : ∀ n, faults.write n = none) :
    (((items ++ [item]).flatMap evidenceLine).length ≤ ceiling →
      ∃ s', spoolItem ceiling artifact uri faults s item = .ok s') ∧
    (ceiling < ((items ++ [item]).flatMap evidenceLine).length →
      spoolItem ceiling artifact uri faults s item = .error (.singlePutSizeLimitError uri
        ((items ++ [item]).flatMap evidenceLine).length ceiling)) := by
  have hvalid := validateEvidence_ok.mpr hcoherent
  have hprojected : s.spool.tell + (evidenceLine item).length =
      ((items ++ [item]).flatMap evidenceLine).length := by
    rw [Stream.tell, h.position, h.content, List.flatMap_append, List.length_append,
      List.flatMap_singleton]
  constructor
  · intro hfit
    simp only [spoolItem, hvalid, bind, Except.bind, hprojected, if_neg (Nat.not_lt.mpr hfit),
      hfaults]
    exact ⟨_, rfl⟩
  · intro hlarge
    simp only [spoolItem, hvalid, bind, Except.bind, hprojected, if_pos hlarge]
    rfl

/-- By induction on the items: nothing stops the loop but a refusal, a fault or the ceiling. -/
theorem spoolItems_complete {ceiling : Nat} {artifact : BronzeArtifact} (uri : String)
    {faults : SpoolFaults} {s : EvidenceSpool} {items more : List BronzeRecordEvidence}
    (h : s.Of artifact items) (hcoherent : ∀ item ∈ more, Coherent artifact item)
    (hfaults : ∀ n, faults.write n = none)
    (hfit : ((items ++ more).flatMap evidenceLine).length ≤ ceiling) :
    ∃ s', more.foldlM (spoolItem ceiling artifact uri faults) s = .ok s' := by
  induction more generalizing s items with
  | nil => exact ⟨s, rfl⟩
  | cons item more ih =>
    rw [show items ++ item :: more = (items ++ [item]) ++ more by simp] at hfit
    have hroom : ((items ++ [item]).flatMap evidenceLine).length ≤ ceiling := by
      rw [List.flatMap_append, List.length_append] at hfit
      omega
    obtain ⟨s₁, hs₁⟩ := (spoolItem_eq ceiling uri h (hcoherent item (by simp)) hfaults).1 hroom
    obtain ⟨s', hs'⟩ := ih (spoolItem_ok h hs₁)
      (fun x hx => hcoherent x (List.mem_cons_of_mem _ hx)) hfit
    refine ⟨s', ?_⟩
    simp only [List.foldlM_cons, bind, Except.bind, hs₁, hs']

theorem spoolEvidence_complete {ceiling : Nat} {artifact : BronzeArtifact} {uri : String}
    {faults : SpoolFaults} {evidence : EvidenceIterable} (hending : evidence.ending = none)
    (hcoherent : ∀ item ∈ evidence.items, Coherent artifact item)
    (hfaults : ∀ n, faults.write n = none)
    (hfit : (evidence.items.flatMap evidenceLine).length ≤ ceiling) :
    spoolEvidence ceiling artifact uri faults evidence = .ok (.ofItems evidence.items) := by
  obtain ⟨s, hs⟩ := spoolItems_complete uri (EvidenceSpool.Of.empty artifact) hcoherent
    hfaults hfit
  have hof := spoolItems_ok (EvidenceSpool.Of.empty artifact) hs
  rw [List.nil_append] at hof
  rw [spoolEvidence_eq]
  simp only [hs, hending, bind, Except.bind]
  rw [← hof.eq]; rfl

/-- An iterator that raises is written up to there, and its exception ends the loop. -/
theorem spoolEvidence_raised {ceiling : Nat} {artifact : BronzeArtifact} (uri : String)
    {faults : SpoolFaults} {evidence : EvidenceIterable} {exc : Exc}
    (hending : evidence.ending = some exc)
    (hcoherent : ∀ item ∈ evidence.items, Coherent artifact item)
    (hfaults : ∀ n, faults.write n = none)
    (hfit : (evidence.items.flatMap evidenceLine).length ≤ ceiling) :
    spoolEvidence ceiling artifact uri faults evidence = .error exc := by
  obtain ⟨s, hs⟩ := spoolItems_complete uri (EvidenceSpool.Of.empty artifact) hcoherent
    hfaults hfit
  rw [spoolEvidence_eq]
  simp only [hs, hending, bind, Except.bind]
  rfl

/-- Past the ceiling the loop stops, at the first item whose line does not fit, and takes no other. -/
theorem spoolItems_tooLarge {ceiling : Nat} {artifact : BronzeArtifact} (uri : String)
    {faults : SpoolFaults} {s : EvidenceSpool} {items more : List BronzeRecordEvidence}
    (h : s.Of artifact items) (hcoherent : ∀ item ∈ more, Coherent artifact item)
    (hfaults : ∀ n, faults.write n = none)
    (hfit : (items.flatMap evidenceLine).length ≤ ceiling)
    (hlarge : ceiling < ((items ++ more).flatMap evidenceLine).length) :
    ∃ before item after, more = before ++ item :: after ∧
      ((items ++ before).flatMap evidenceLine).length ≤ ceiling ∧
      ceiling < ((items ++ before ++ [item]).flatMap evidenceLine).length ∧
      more.foldlM (spoolItem ceiling artifact uri faults) s = .error (.singlePutSizeLimitError uri
        ((items ++ before ++ [item]).flatMap evidenceLine).length ceiling) ∧
      (spoolItems ceiling artifact uri faults s more).pulled = before ++ [item] := by
  induction more generalizing s items with
  | nil =>
    rw [List.append_nil] at hlarge
    omega
  | cons item more ih =>
    obtain ⟨hitem, hmore⟩ := List.forall_mem_cons.mp hcoherent
    obtain ⟨hspool, hrefuse⟩ := spoolItem_eq ceiling uri h hitem hfaults
    have happend : items ++ item :: more = items ++ [item] ++ more := by
      rw [List.append_assoc, List.singleton_append]
    rcases Nat.lt_or_ge ceiling ((items ++ [item]).flatMap evidenceLine).length with hlt | hle
    · refine ⟨[], item, more, rfl, by rw [List.append_nil]; exact hfit,
        by rw [List.append_nil]; exact hlt, ?_, ?_⟩
      · rw [List.append_nil, List.foldlM_cons, hrefuse hlt]
        rfl
      · rw [spoolItems, hrefuse hlt]
        rfl
    · obtain ⟨s', hs'⟩ := hspool hle
      rw [happend] at hlarge
      obtain ⟨before, next, after, heq, hbefore, hnext, hfold, hpulled⟩ :=
        ih (spoolItem_ok h hs') hmore hle hlarge
      have hassoc : items ++ item :: before = items ++ [item] ++ before := by
        rw [List.append_assoc, List.singleton_append]
      refine ⟨item :: before, next, after, by rw [heq, List.cons_append], ?_, ?_, ?_, ?_⟩
      · rw [hassoc]; exact hbefore
      · rw [hassoc]; exact hnext
      · rw [hassoc, List.foldlM_cons, hs']
        exact hfold
      · rw [spoolItems, hs', List.cons_append]
        exact congrArg _ hpulled

theorem spoolEvidence_tooLarge {ceiling : Nat} {artifact : BronzeArtifact} (uri : String)
    (faults : SpoolFaults) {evidence : EvidenceIterable}
    (hcoherent : ∀ item ∈ evidence.items, Coherent artifact item)
    (hfaults : ∀ n, faults.write n = none)
    (hlarge : ceiling < (evidence.items.flatMap evidenceLine).length) :
    ∃ before item after, evidence.items = before ++ item :: after ∧
      (before.flatMap evidenceLine).length ≤ ceiling ∧
      ceiling < ((before ++ [item]).flatMap evidenceLine).length ∧
      spoolEvidence ceiling artifact uri faults evidence = .error (.singlePutSizeLimitError uri
        ((before ++ [item]).flatMap evidenceLine).length ceiling) ∧
      (spoolLoop ceiling artifact uri faults evidence).pulled = before ++ [item] := by
  obtain ⟨before, item, after, heq, hbefore, hitem, hfold, hpulled⟩ :=
    spoolItems_tooLarge uri (EvidenceSpool.Of.empty artifact) hcoherent hfaults
      (Nat.zero_le ceiling) hlarge
  rw [List.nil_append] at hbefore hitem hfold
  refine ⟨before, item, after, heq, hbefore, hitem, ?_, (spoolLoop_pulled ..).trans hpulled⟩
  rw [spoolEvidence_eq]
  simp only [hfold, bind, Except.bind]

/-- A loop that does not raise takes every item. -/
theorem pulled_of_ok {ceiling : Nat} {artifact : BronzeArtifact} {uri : String}
    {faults : SpoolFaults} {s s' : EvidenceSpool} {items : List BronzeRecordEvidence}
    (hok : (spoolItems ceiling artifact uri faults s items).result = .ok s') :
    (spoolItems ceiling artifact uri faults s items).pulled = items := by
  induction items generalizing s with
  | nil => rfl
  | cons item items ih =>
    rw [spoolItems] at hok ⊢
    cases hstep : spoolItem ceiling artifact uri faults s item with
    | error exc => rw [hstep] at hok; cases hok
    | ok s₁ =>
      rw [hstep] at hok
      exact congrArg (item :: ·) (ih hok)

theorem pulled_of_spooled {ceiling : Nat} {artifact : BronzeArtifact} {uri : String}
    {faults : SpoolFaults} {evidence : EvidenceIterable} {s : EvidenceSpool}
    (hok : spoolEvidence ceiling artifact uri faults evidence = .ok s) :
    (spoolLoop ceiling artifact uri faults evidence).pulled = evidence.items := by
  rw [spoolEvidence_eq] at hok
  simp only [bind, Except.bind] at hok
  split at hok
  · cases hok
  · rename_i s₁ hs₁
    rw [spoolLoop_pulled]
    exact pulled_of_ok ((spoolItems_result ..).trans hs₁)

/-- The loop stops at the first incoherent item. -/
theorem spoolEvidence_incoherent {ceiling : Nat} {artifact : BronzeArtifact} {uri : String}
    {faults : SpoolFaults} {evidence : EvidenceIterable} {before after : List BronzeRecordEvidence}
    {item : BronzeRecordEvidence} {s : EvidenceSpool}
    (hitems : evidence.items = before ++ item :: after)
    (hbefore : before.foldlM (spoolItem ceiling artifact uri faults) .empty = .ok s)
    (hbad : ¬ Coherent artifact item) : ∃ message,
      spoolEvidence ceiling artifact uri faults evidence =
        .error (.manifestSerializationError message) := by
  obtain ⟨message, hmessage⟩ := validateEvidence_error hbad
  have hstep : spoolItem ceiling artifact uri faults s item =
      .error (.manifestSerializationError message) := by
    simp only [spoolItem, hmessage, bind, Except.bind]
  refine ⟨message, ?_⟩
  rw [spoolEvidence_eq]
  simp only [hitems, List.foldlM_append, List.foldlM_cons, hbefore, hstep, bind, Except.bind]

/-- The evidence of one row of a run, with this outcome. -/
def sampleItem (run : UUID) (outcome : ContractOutcome) : BronzeRecordEvidence where
  provenance :=
    { id := sampleId
      createdAt := sampleInstant
      museumId := sampleId
      source := .met
      sourceRecordId := "1"
      contractVersion := "1.0.0"
      ingestionRunId := run
      observedAt := sampleInstant
      sourceUrl := "https://museum.example/object/1"
      retrievalStatus := .available
      retrievedAt := sampleInstant
      rawUri := "s3://lake/source.csv"
      acquisitionContext := ⟨.fullSnapshot⟩
      rawChecksum := none
      attributionText := some "\"a\nb\u2028"
      outcome := outcome }
  result := ⟨outcome, [⟨"title", "a title", none⟩]⟩

/-- Four rows of three outcomes. -/
def sampleEvidence (run : UUID) : List BronzeRecordEvidence :=
  [.accepted, .quarantined, .acceptedWithWarnings, .accepted].map (sampleItem run)

theorem sampleEvidence_coherent (run : UUID) (extension : SafeExtension) :
    ∀ item ∈ sampleEvidence run, Coherent (sampleArtifactOf run extension) item := by
  intro item hitem
  obtain ⟨outcome, -, rfl⟩ := List.mem_map.mp hitem
  exact ⟨rfl, rfl, rfl, rfl⟩

theorem width_sampleItem_le (run : UUID) (outcome : ContractOutcome) :
    (sampleItem run outcome).modelDump.width ≤ 6000 := by
  have hinstant : sampleInstant.dump.width ≤ 200 := by decide +kernel
  have houtcome : outcome.value.toList.length ≤ 22 := by cases outcome <;> decide +kernel
  simp only [BronzeRecordEvidence.modelDump, SourceRecord.modelDump, ContractResult.modelDump,
    ValidationMessage.modelDump, sampleItem, dumpText, SourceName.value, RetrievalStatus.value,
    IngestionMode.value, Json.width, Json.widthFields, Json.widthItems, List.map_cons, List.map_nil,
    UUID.width_dump]
  simp
  omega

theorem length_sampleEvidence (run : UUID) : (sampleEvidence run).length = 4 := rfl

/-- The lines of the sample evidence are short. -/
theorem length_sampleLines_lt (run : UUID) :
    ((sampleEvidence run).flatMap evidenceLine).length < 10 ^ 5 := by
  have hwidth : ∀ item ∈ sampleEvidence run, item.modelDump.width ≤ 6000 := by
    intro item hitem
    obtain ⟨outcome, -, rfl⟩ := List.mem_map.mp hitem
    exact width_sampleItem_le run outcome
  have hlines := length_evidenceLines_le 6000 hwidth
  rw [length_sampleEvidence] at hlines
  omega

end EvidenceCartographer.Infrastructure
