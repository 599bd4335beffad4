import EvidenceCartographer.Concurrency.History
import EvidenceCartographer.Infrastructure.Staging

/-! The snapshot downloader: a body is received into `MetObjects.csv.part`, checked, and renamed to
    `MetObjects.csv`, once or after retries.

    What the downloader asks of the outside (the directory, the HTTP client, the clock, the retry
    decider) are the operations of its machine. Every party works in a directory of its own, and what
    the operations do to it is `MetDirectory.Step`. Where nothing fails, a body within the ceiling and
    as long as announced is downloaded at once. -/

namespace EvidenceCartographer.Sources.Met

open Python Domain Application Infrastructure Concurrency

/-- A response, with what the reads of its body give: a chunk, the empty one at the end, or an
    exception. -/
structure StreamingHttpResponse where
  status : Int
  headers : List (String × String)
  finalUrl : String
  body : List (Except Exc Bytes)

/-- The operations of the machine; `part` is `MetObjects.csv.part` and `target` is
    `MetObjects.csv`. -/
inductive MachineOp where
  | makeTemporary
  | removeTemporary
  | makeDirectory
  | unlinkPart
  | request (url : String) (headers : List (String × String))
  | closeResponse
  | openPart
  | writePart (chunk : Bytes)
  | closePart
  | replacePart
  | openTarget
  | clock
  | decide (failure : Exc) (attempt : Nat)

abbrev machineSignature : Signature where
  Op := MachineOp
  Reply
    | .makeTemporary => Except Exc String
    | .request _ _ => Except Exc StreamingHttpResponse
    | .openTarget => LocalFile
    | .clock => Except Exc AwareDatetime
    | .decide _ _ => Except Exc RetryDecision
    | _ => Except Exc Unit

/-- The two files of a directory. -/
structure MetDirectory where
  part : Option Bytes
  target : Option Bytes

/-- A file that is read to its end reads as it is. -/
def ReadsAs (file : LocalFile) (content : Option Bytes) : Prop :=
  file.isFile = true → ReadToEnd file.reads → content = some (chunksRead file.reads)

/-- What an operation does to the directory: a failed one may leave any part file, but only a
    rename writes the target. -/
def MetDirectory.Step (dir : MetDirectory) (o : MachineOp) (r : machineSignature.Reply o)
    (dir' : MetDirectory) : Prop :=
  match o, r with
  | .makeTemporary, _ => dir' = ⟨none, none⟩
  | .removeTemporary, .ok () => dir' = ⟨none, none⟩
  | .removeTemporary, .error _ => True
  | .unlinkPart, .ok () => dir' = { dir with part := none }
  | .openPart, .ok () => dir' = { dir with part := some [] }
  | .openPart, .error _ => dir'.target = dir.target
  | .writePart chunk, .ok () =>
    ∃ written, dir.part = some written ∧ dir' = { dir with part := some (written ++ chunk) }
  | .writePart _, .error _ => dir'.target = dir.target
  | .closePart, .error _ => dir'.target = dir.target
  | .replacePart, .ok () => ∃ written, dir.part = some written ∧ dir' = ⟨none, some written⟩
  | .openTarget, file => dir' = dir ∧ ReadsAs file dir.target
  | _, _ => dir' = dir

/-- Every party in its own directory, which nobody else touches. -/
def machineSystem (ι : Type) : System ι machineSignature (ι → MetDirectory) where
  env _ _ := False
  exec i o s r s' := (s i).Step o r (s' i) ∧ ∀ j, j ≠ i → s' j = s j
  rely i s s' := s' i = s i
  rely_refl _ _ := rfl
  rely_trans _ _ _ _ h h' := h'.trans h
  env_rely _ _ _ h := h.elim
  exec_rely _ j _ _ _ _ hne h := h.2 j hne

structure DownloadedMetSnapshot where
  localPath : String
  requestedUrl : String
  finalUrl : String
  mediaType : String
  etag : Option String
  lastModified : Option String
  sizeBytes : Nat
  sha256 : Sha256Hex
  retrievedAt : AwareDatetime
  sizeBytes_pos : 0 < sizeBytes

structure MetSnapshotConditional where
  etag : Option String
  lastModified : Option String

structure MetSnapshotNotModified where
  requestedUrl : String
  finalUrl : String
  etag : Option String
  lastModified : Option String
  retrievedAt : AwareDatetime

/-- What `_run` and `_attempt` return. -/
inductive DownloadResult where
  | downloaded (snapshot : DownloadedMetSnapshot)
  | notModified (answer : MetSnapshotNotModified)

def retryableStatuses : List Int := [408, 429, 500, 502, 503, 504]

/-- `_conditional_headers`. -/
def conditionalHeaders : Option MetSnapshotConditional → List (String × String)
  | none => []
  | some c => (c.etag.map fun etag => ("If-None-Match", etag)).toList ++
      (c.lastModified.map fun modified => ("If-Modified-Since", modified)).toList

/-- `_normalized_headers`; a later entry of the same name replaces an earlier one. -/
def normalizedHeaders (headers : List (String × String)) : List (String × String) :=
  (headers.map fun header => (header.1.toLower, header.2)).reverse

/-- `_content_length`. -/
def contentLength (headers : List (String × String)) : Except Exc (Option Int) :=
  match headers.lookup "content-length" with
  | none => .ok none
  | some value =>
    match int value with
    | none => .error (.downloadIntegrityError ("invalid Content-Length header: " ++ Python.repr value))
    | some parsed =>
      if parsed < 0 then
        .error (.downloadIntegrityError ("invalid Content-Length header: " ++ Python.repr value))
      else .ok (some parsed)

/-- The check of the length against the header. -/
def checkLength (expectedLength : Option Int) (sizeBytes : Nat) : Except Exc Unit :=
  match expectedLength with
  | none => .ok ()
  | some expected =>
    if (sizeBytes : Int) ≠ expected then
      .error (.downloadIntegrityError ("expected " ++ toString expected ++ " bytes, downloaded " ++
        toString sizeBytes))
    else .ok ()

/-- The loop of `_attempt`. -/
def receiveBody (ceiling : Nat) :
    List (Except Exc Bytes) → Nat → Digest → Program machineSignature Exc (Nat × Digest)
  | [], sizeBytes, digest => .ret (sizeBytes, digest)
  | .error exc :: _, _, _ => .raise exc
  | .ok [] :: _, sizeBytes, digest => .ret (sizeBytes, digest)
  | .ok (byte :: bytes) :: reads, sizeBytes, digest =>
    let chunk := byte :: bytes
    let sizeBytes := sizeBytes + chunk.length
    if ceiling < sizeBytes then
      .raise (.downloadSizeLimitError ("download exceeds " ++ toString ceiling ++ " bytes"))
    else do
      .call (.writePart chunk) .ofExcept
      receiveBody ceiling reads sizeBytes (digest.update chunk)

/-- `MetSnapshotDownloader`, with `ceiling` for `MAX_ARTIFACT_SIZE_BYTES`. -/
structure MetSnapshotDownloader where
  url : String
  maxAttempts : Nat
  ceiling : Nat
  maxAttempts_pos : 1 ≤ maxAttempts

namespace MetSnapshotDownloader

variable (downloader : MetSnapshotDownloader) (destination : String)
  (conditional : Option MetSnapshotConditional)

section OnMachine

variable {S : Signature}
  (onMachine : {α : Type} → Program machineSignature Exc α → Program S Exc α)

/-- `_attempt`, once a 200 response with these headers is open, in any signature that has the machine;
    `stream` is the loop over the body. -/
def receiveSnapshotOn (stream : Program S Exc (Nat × Digest)) (headers : List (String × String))
    (finalUrl : String) : Program S Exc DownloadResult := do
  let expectedLength ← .ofExcept (contentLength headers)
  onMachine (.call .openPart .ofExcept)
  let (sizeBytes, digest) ← stream.ensuring (onMachine (.call .closePart .ofExcept))
  if h : sizeBytes = 0 then .raise (.downloadIntegrityError "downloaded artifact is empty")
  else do
    .ofExcept (checkLength expectedLength sizeBytes)
    onMachine (.call .replacePart .ofExcept)
    let retrievedAt ← onMachine (.call .clock .ofExcept)
    return .downloaded {
      localPath := destination ++ "/MetObjects.csv"
      requestedUrl := downloader.url
      finalUrl := finalUrl
      mediaType := (headers.lookup "content-type").getD "text/csv"
      etag := headers.lookup "etag"
      lastModified := headers.lookup "last-modified"
      sizeBytes := sizeBytes
      sha256 := digest.hexdigest
      retrievedAt := retrievedAt
      sizeBytes_pos := Nat.pos_of_ne_zero h }

/-- `_attempt`, once a response with this status and these headers is open. -/
def receiveOn (stream : Program S Exc (Nat × Digest)) (status : Int)
    (headers : List (String × String)) (finalUrl : String) : Program S Exc DownloadResult :=
  if status = 304 ∧ conditional.isSome then do
    let retrievedAt ← onMachine (.call .clock .ofExcept)
    return .notModified {
      requestedUrl := downloader.url
      finalUrl := finalUrl
      etag := headers.lookup "etag"
      lastModified := headers.lookup "last-modified"
      retrievedAt := retrievedAt }
  else if status ∈ retryableStatuses then
    .raise (.retryableHttpDownloadError
      ("HTTP " ++ toString status ++ " while downloading " ++ downloader.url))
  else if status ≠ 200 then
    .raise (.httpDownloadError
      ("HTTP " ++ toString status ++ " while downloading " ++ downloader.url))
  else downloader.receiveSnapshotOn destination onMachine stream headers finalUrl

/-- The loop of `_run`: the attempts that remain, and the number of the next one. -/
def attemptsOn (attempt : Program S Exc DownloadResult) : Nat → Nat → Program S Exc DownloadResult
  | 0, _ => .raise (.other "AssertionError" "download attempts exhausted without a result")
  | remaining + 1, number =>
    let retryOr (failure : Exc) : Program S Exc DownloadResult := do
      onMachine (.call .unlinkPart .ofExcept)
      if number < downloader.maxAttempts then
        match ← onMachine (.call (.decide failure number) .ofExcept) with
        | .retry => attemptsOn attempt remaining (number + 1)
        | .stop => .raise failure
      else .raise failure
    let reraise (exc : Exc) : Program S Exc DownloadResult := do
      onMachine (.call .unlinkPart .ofExcept)
      .raise exc
    ((onMachine (.call .unlinkPart .ofExcept) : Program S Exc Unit).bind fun _ => attempt).handle fun
      | .downloadSizeLimitError message => reraise (.downloadSizeLimitError message)
      | .downloadIntegrityError message => retryOr (.downloadIntegrityError message)
      | .retryableHttpDownloadError message => retryOr (.retryableHttpDownloadError message)
      | .httpDownloadError message => reraise (.httpDownloadError message)
      | exc => retryOr (.retryableHttpDownloadError
          ("HTTP download failed for " ++ downloader.url ++ ": " ++ exc.str))

/-- `_run`. -/
def runOn (attempt : Program S Exc DownloadResult) : Program S Exc DownloadResult := do
  (onMachine (.call .makeDirectory .ofExcept) : Program S Exc Unit).handle fun exc =>
    if exc.isOSError then
      .raise (.httpDownloadError ("could not create download directory " ++ destination))
    else .raise exc
  downloader.attemptsOn onMachine attempt downloader.maxAttempts 1

end OnMachine

/-- What a caller of `download` gets of the result of `_run`. -/
def downloadOf {S : Signature} (run : Program S Exc DownloadResult) :
    Program S Exc DownloadedMetSnapshot := do
  match ← run with
  | .downloaded snapshot => return snapshot
  | .notModified _ => .raise (.httpDownloadError "unconditional download returned HTTP 304")

/-- `_attempt`, once a 200 response is open. -/
def receiveSnapshot (response : StreamingHttpResponse) : Program machineSignature Exc DownloadResult :=
  downloader.receiveSnapshotOn destination (fun p => p)
    (receiveBody downloader.ceiling response.body 0 .new) (normalizedHeaders response.headers)
    response.finalUrl

/-- `_attempt`, once the response is open. -/
def receive (response : StreamingHttpResponse) : Program machineSignature Exc DownloadResult :=
  downloader.receiveOn destination conditional (fun p => p)
    (receiveBody downloader.ceiling response.body 0 .new) response.status
    (normalizedHeaders response.headers) response.finalUrl

/-- `_attempt`. -/
def attempt : Program machineSignature Exc DownloadResult := do
  let response ← .call (.request downloader.url (conditionalHeaders conditional)) .ofExcept
  (downloader.receive destination conditional response).ensuring (.call .closeResponse .ofExcept)

/-- The attempts of `_run`. -/
def attempts : Nat → Nat → Program machineSignature Exc DownloadResult :=
  downloader.attemptsOn (fun p => p) (downloader.attempt destination conditional)

/-- `_run`. -/
def run : Program machineSignature Exc DownloadResult :=
  downloader.runOn destination (fun p => p) (downloader.attempt destination conditional)

def download : Program machineSignature Exc DownloadedMetSnapshot :=
  downloadOf (downloader.run destination none)

def downloadIfChanged (conditional : MetSnapshotConditional) :
    Program machineSignature Exc DownloadResult :=
  downloader.run destination (some conditional)

end MetSnapshotDownloader

/-- The snapshot is of this file. -/
def DownloadedMetSnapshot.Describes (snapshot : DownloadedMetSnapshot) (content : Option Bytes) :
    Prop :=
  ∃ bytes, content = some bytes ∧ snapshot.sizeBytes = bytes.length ∧
    snapshot.sha256 = Python.sha256 bytes

/-- The operation did not fail. -/
def MachineOp.Succeeds (o : MachineOp) (r : machineSignature.Reply o) : Prop :=
  match o, r with
  | .makeTemporary, .error _ | .removeTemporary, .error _ | .makeDirectory, .error _
  | .unlinkPart, .error _ | .request _ _, .error _ | .closeResponse, .error _ | .openPart, .error _
  | .writePart _, .error _ | .closePart, .error _ | .replacePart, .error _ | .clock, .error _
  | .decide _ _, .error _ => False
  | _, _ => True

/-- One party, in a directory of its own, for which everything succeeds. -/
def workingMachine : System Unit machineSignature (Unit → MetDirectory) :=
  (machineSystem Unit).assuming MachineOp.Succeeds

variable {downloader : MetSnapshotDownloader} {destination : String}

/-- One operation of a party that is alone, whose reply is allowed and says that it did not raise. -/
theorem runs_alone {α : Type} {P : (o : MachineOp) → machineSignature.Reply o → Prop} (o : MachineOp)
    (x : machineSignature.Reply o) {f : machineSignature.Reply o → Except Exc α} {a : α}
    {dir dir' : MetDirectory} (hallowed : P o x) (hok : f x = .ok a) (hstep : dir.Step o x dir') :
    ((machineSystem Unit).assuming P).Runs () (.call o fun r => .ofExcept (f r)) (fun _ => dir)
      (.ok a) (fun _ => dir') := by
  have hexec : ((machineSystem Unit).assuming P).exec () o (fun _ => dir) x (fun _ => dir') :=
    ⟨⟨hstep, fun _ hne => absurd rfl hne⟩, hallowed⟩
  refine .call hexec ?_
  rw [hok]
  exact .ret _ _

/-- On this machine a party can do in its own directory what it can do alone, if nothing fails. -/
def CanWork {ι : Type} [DecidableEq ι] (machine : System ι machineSignature (ι → MetDirectory))
    (i : ι) : Prop :=
  ∀ dirs o s x s', workingMachine.exec () o s x s' →
    machine.exec i o (Function.update dirs i (s ())) x (Function.update dirs i (s' ()))

theorem canWork_assuming {ι : Type} [DecidableEq ι]
    {P : (o : MachineOp) → machineSignature.Reply o → Prop} (hP : ∀ o x, o.Succeeds x → P o x)
    (i : ι) : CanWork ((machineSystem ι).assuming P) i := by
  rintro dirs o s x s' ⟨⟨hstep, -⟩, hsucceeds⟩
  refine ⟨⟨by simpa using hstep, fun j hij => ?_⟩, hP o x hsucceeds⟩
  simp [hij]

theorem canWork_machine {ι : Type} [DecidableEq ι] (i : ι) : CanWork (machineSystem ι) i :=
  fun dirs o s x s' hexec => (canWork_assuming (fun _ _ => id) i dirs o s x s' hexec).1

theorem CanWork.runs {ι α : Type} [DecidableEq ι] {i : ι}
    {machine : System ι machineSignature (ι → MetDirectory)} (hmachine : CanWork machine i)
    {p : Program machineSignature Exc α} {r : Except Exc α} {dir dir' : MetDirectory}
    (h : workingMachine.Runs () p (fun _ => dir) r (fun _ => dir')) (dirs : ι → MetDirectory) :
    machine.Runs i p (Function.update dirs i dir) r (Function.update dirs i dir') :=
  h.embed (fun s => Function.update dirs i (s ())) (fun _ _ henv => henv.elim) (hmachine dirs)

/-- By induction on the reads: a body that reads to its end within the ceiling is received. -/
theorem runs_receiveBody {ceiling : Nat} {reads : List (Except Exc Bytes)} (written : Bytes)
    (target : Option Bytes) (hend : ReadToEnd reads)
    (hfit : (written ++ chunksRead reads).length ≤ ceiling) :
    workingMachine.Runs () (receiveBody ceiling reads written.length ⟨written⟩)
      (fun _ => ⟨some written, target⟩)
      (.ok ((written ++ chunksRead reads).length, ⟨written ++ chunksRead reads⟩))
      (fun _ => ⟨some (written ++ chunksRead reads), target⟩) := by
  induction reads generalizing written with
  | nil =>
    rw [chunksRead, List.append_nil]
    exact .ret _ _
  | cons read reads ih =>
    rcases read with exc | (_ | ⟨byte, bytes⟩)
    · exact hend.elim
    · rw [chunksRead, List.append_nil]
      exact .ret _ _
    · rw [chunksRead, ← List.append_assoc] at hfit ⊢
      have hroom : ¬ ceiling < written.length + (byte :: bytes).length := by
        rw [List.length_append, List.length_append] at hfit
        omega
      have hlength : (written ++ byte :: bytes).length = written.length + (byte :: bytes).length :=
        List.length_append
      have hnext := ih (written ++ byte :: bytes) hend hfit
      rw [hlength] at hnext
      simp only [receiveBody, if_neg hroom]
      exact .bind (runs_alone (.writePart _) (.ok ()) trivial rfl ⟨written, rfl, rfl⟩) hnext

/-- The snapshot of a 200 response whose body is `bytes`. -/
def MetSnapshotDownloader.snapshotOf (downloader : MetSnapshotDownloader) (destination : String)
    (response : StreamingHttpResponse) (bytes : Bytes) (retrievedAt : AwareDatetime)
    (h : bytes.length ≠ 0) : DownloadedMetSnapshot where
  localPath := destination ++ "/MetObjects.csv"
  requestedUrl := downloader.url
  finalUrl := response.finalUrl
  mediaType := ((normalizedHeaders response.headers).lookup "content-type").getD "text/csv"
  etag := (normalizedHeaders response.headers).lookup "etag"
  lastModified := (normalizedHeaders response.headers).lookup "last-modified"
  sizeBytes := bytes.length
  sha256 := Python.sha256 bytes
  retrievedAt := retrievedAt
  sizeBytes_pos := Nat.pos_of_ne_zero h

/-- Without faults, a body within the ceiling and as long as announced is downloaded at once. -/
theorem runs_download {response : StreamingHttpResponse} {dir : MetDirectory}
    {expectedLength : Option Int} (retrievedAt : AwareDatetime) (hstatus : response.status = 200)
    (hend : ReadToEnd response.body) (hfit : (chunksRead response.body).length ≤ downloader.ceiling)
    (hne : (chunksRead response.body).length ≠ 0)
    (hexpected : contentLength (normalizedHeaders response.headers) = .ok expectedLength)
    (hlength : checkLength expectedLength (chunksRead response.body).length = .ok ()) :
    workingMachine.Runs () (downloader.download destination) (fun _ => dir)
      (.ok (downloader.snapshotOf destination response (chunksRead response.body) retrievedAt hne))
      (fun _ => ⟨none, some (chunksRead response.body)⟩) := by
  have hbody := runs_receiveBody [] dir.target hend hfit
  rw [List.nil_append] at hbody
  have hreceive : workingMachine.Runs () (downloader.receive destination none response)
      (fun _ => ⟨none, dir.target⟩)
      (.ok (.downloaded (downloader.snapshotOf destination response (chunksRead response.body)
        retrievedAt hne)))
      (fun _ => ⟨none, some (chunksRead response.body)⟩) := by
    have h304 : ¬ (response.status = 304 ∧ (none : Option MetSnapshotConditional).isSome) := by
      simp
    have hretry : response.status ∉ retryableStatuses := by rw [hstatus]; decide
    rw [MetSnapshotDownloader.receive, MetSnapshotDownloader.receiveOn, if_neg h304, if_neg hretry,
      if_neg (by simp [hstatus]), MetSnapshotDownloader.receiveSnapshotOn, hexpected]
    refine .bind (.ofExcept (.ok expectedLength) _) (.bind
      (runs_alone .openPart (.ok ()) trivial rfl rfl) (.bind (.ensuring hbody
        (runs_alone .closePart (.ok ()) trivial rfl rfl)) ?_))
    dsimp only
    rw [dif_neg hne, hlength]
    exact .bind (.ofExcept (.ok ()) _) (.bind
      (runs_alone .replacePart (.ok ()) trivial rfl ⟨_, rfl, rfl⟩) (.bind
        (runs_alone .clock (.ok retrievedAt) trivial rfl rfl) (.ret _ _)))
  have hattempt : workingMachine.Runs () (downloader.attempt destination none)
      (fun _ => ⟨none, dir.target⟩) (.ok (.downloaded (downloader.snapshotOf destination response
        (chunksRead response.body) retrievedAt hne)))
      (fun _ => ⟨none, some (chunksRead response.body)⟩) :=
    .bind (runs_alone (.request _ _) (.ok response) trivial rfl rfl)
      (.ensuring hreceive (runs_alone .closeResponse (.ok ()) trivial rfl rfl))
  have hattempts : workingMachine.Runs ()
      (downloader.attempts destination none downloader.maxAttempts 1) (fun _ => dir)
      (.ok (.downloaded (downloader.snapshotOf destination response
        (chunksRead response.body) retrievedAt hne)))
      (fun _ => ⟨none, some (chunksRead response.body)⟩) := by
    obtain ⟨remaining, hremaining⟩ := Nat.exists_eq_add_one.mpr downloader.maxAttempts_pos
    rw [hremaining]
    exact .handle_ok (.bind (runs_alone .unlinkPart (.ok ()) trivial rfl rfl) hattempt)
  exact .bind (.bind (.handle_ok (runs_alone .makeDirectory (.ok ()) trivial rfl rfl)) hattempts)
    (.ret _ _)

end EvidenceCartographer.Sources.Met
