import EvidenceCartographer.Concurrency.Takes
import EvidenceCartographer.Sources.Met.DownloadedFile

/-! The two chunked loops over one snapshot: the one that receives a body and the one that stages its
    file.

    Each keeps a size and a digest along its chunks, and checks the ceiling before it writes. Where
    nothing fails, both are functions of the bytes alone: the receiving loop decides as if it had the
    body at once, and the staging loop accepts what it accepted, however either is divided. -/

namespace EvidenceCartographer.Sources.Met

open Python Domain Application Infrastructure Concurrency

/-- Nothing fails, and a request is answered with this response. -/
def MachineOp.Undisturbed (response : StreamingHttpResponse) (o : MachineOp)
    (x : machineSignature.Reply o) : Prop :=
  o.Succeeds x ∧ match o, x with
    | .request _ _, .ok answer => answer = response
    | _, _ => True

/-- The same of a whole history. -/
def Undisturbed (response : StreamingHttpResponse) (history : MachineHistory) : Prop :=
  ∀ event ∈ history, event.1.Undisturbed response event.2

/-- What an undisturbed operation does to a directory. -/
def MetDirectory.UndisturbedStep (response : StreamingHttpResponse) (o : MachineOp)
    (x : machineSignature.Reply o) (dir dir' : MetDirectory) : Prop :=
  dir.Step o x dir' ∧ o.Undisturbed response x

/-- A directory is what its party's history made of it. -/
theorem steps_of_reachable {ι α : Type} [DecidableEq ι] {dirs : ι → MetDirectory}
    {procs : ι → Program machineSignature Exc α}
    {c : Config ι machineSignature (MachineState ι) Exc α}
    (hr : (machineSystem ι).traced.Reachable ⟨(dirs, .empty), procs⟩ c) (i : ι) :
    Program.Steps (fun o x dir dir' => MetDirectory.Step dir o x dir') (dirs i) (c.shared.2.of i)
      (c.shared.1 i) := by
  refine System.Reachable.shared (fun x : MachineState ι =>
    Program.Steps (fun o x dir dir' => MetDirectory.Step dir o x dir') (dirs i) (x.2.of i) (x.1 i))
    ?_ ?_ hr rfl
  · rintro x x' ⟨henv, -⟩
    exact henv.elim
  rintro j o x r x' ⟨⟨hstep, hothers⟩, hlog⟩ h
  rw [hlog]
  by_cases hij : i = j
  · subst hij
    rw [Log.of_push]
    exact h.concat hstep
  · rw [hothers i hij]
    have hof : (x.2.push j ⟨o, r⟩).of i = x.2.of i := Function.update_of_ne hij _ _
    rw [hof]
    exact h

/-- How the receiving loop ends on a body, with the part file it leaves. -/
inductive BodyReceived (ceiling : Nat) (body : Bytes) (target : Option Bytes) :
    Except Exc (Nat × Digest) → MetDirectory → Prop where
  | whole : body.length ≤ ceiling →
      BodyReceived ceiling body target (.ok (body.length, ⟨body⟩)) ⟨some body, target⟩
  | tooLarge (written message) : ceiling < body.length → written <+: body → written.length ≤ ceiling →
      BodyReceived ceiling body target (.error (.downloadSizeLimitError message))
        ⟨some written, target⟩

section Loop

variable {response : StreamingHttpResponse} {dir dir' : MetDirectory}

/-- By induction on the reads. -/
theorem bodyReceived_of_takes {ceiling : Nat} {reads : List (Except Exc Bytes)} {written : Bytes}
    {target : Option Bytes} {r : Except Exc (Nat × Digest)}
    (h : (receiveBody ceiling reads written.length ⟨written⟩).Takes
      (MetDirectory.UndisturbedStep response) ⟨some written, target⟩ r dir')
    (hend : ReadToEnd reads) (hfits : written.length ≤ ceiling) :
    BodyReceived ceiling (written ++ chunksRead reads) target r dir' := by
  induction reads generalizing written with
  | nil =>
    obtain ⟨rfl, rfl⟩ := h
    rw [chunksRead, List.append_nil]
    exact .whole hfits
  | cons read reads ih =>
    rcases read with exc | (_ | ⟨byte, bytes⟩)
    · exact hend.elim
    · obtain ⟨rfl, rfl⟩ := h
      rw [chunksRead, List.append_nil]
      exact .whole hfits
    · rw [chunksRead, ← List.append_assoc]
      have hlength : (written ++ byte :: bytes).length = written.length + (byte :: bytes).length :=
        List.length_append
      simp only [receiveBody] at h
      split at h
      · -- the chunk does not fit, and is not written
        rename_i hlarge
        obtain ⟨rfl, rfl⟩ := h
        rw [← hlength] at hlarge
        refine .tooLarge written _ ?_ ?_ hfits
        · rw [List.length_append]
          exact Nat.lt_add_right _ hlarge
        · rw [List.append_assoc]
          exact List.prefix_append _ _
      · rename_i hroom
        obtain ⟨wrote, mid, hwrite, hrest⟩ := Program.takes_bind.mp h
        obtain ⟨_, ⟨hstep, hsucceeds, -⟩, rfl⟩ := Program.takes_reply.mp hwrite
        rcases wrote with exc | ⟨⟨⟩⟩
        · exact hsucceeds.elim
        obtain ⟨content, hcontent, rfl⟩ := hstep
        cases hcontent
        rw [← hlength] at hroom hrest
        exact ih hrest hend (Nat.le_of_not_lt hroom)

end Loop

/-- The length a response announces: none without `Content-Length`, or what the header says. -/
def StreamingHttpResponse.Announces (response : StreamingHttpResponse) : Option Nat → Prop
  | none => (normalizedHeaders response.headers).lookup "content-length" = none
  | some n => ∃ value, (normalizedHeaders response.headers).lookup "content-length" = some value ∧
      int value = some (n : Int)

theorem contentLength_of_announces {response : StreamingHttpResponse} {announced : Option Nat}
    (h : response.Announces announced) :
    contentLength (normalizedHeaders response.headers) = .ok (announced.map Int.ofNat) := by
  rcases announced with _ | n
  · have hlookup : (normalizedHeaders response.headers).lookup "content-length" = none := h
    rw [contentLength, hlookup]
    rfl
  · obtain ⟨value, hlookup, hvalue⟩ := h
    have hnonneg : ¬ (n : Int) < 0 := by omega
    simp only [contentLength, hlookup, hvalue, if_neg hnonneg]
    rfl

theorem checkLength_cases (announced : Option Nat) (size : Nat) :
    ((∀ n, announced = some n → n = size) ∧
      checkLength (announced.map Int.ofNat) size = .ok ()) ∨
    (∃ n, announced = some n ∧ n ≠ size) ∧
      ∃ message, checkLength (announced.map Int.ofNat) size =
        .error (.downloadIntegrityError message) := by
  rcases announced with _ | n
  · exact .inl ⟨by simp, rfl⟩
  by_cases heq : n = size
  · refine .inl ⟨by simp [heq], ?_⟩
    simp [checkLength, heq]
  · have hne : (size : Int) ≠ Int.ofNat n := fun h => heq (by simpa using h.symm)
    exact .inr ⟨⟨n, rfl, heq⟩, _, if_pos hne⟩

/-- How an attempt ends on the whole body of a 200 response, with the directory it leaves. -/
inductive BodySettled (ceiling : Nat) (announced : Option Nat) (body : Bytes)
    (target : Option Bytes) : Except Exc DownloadResult → MetDirectory → Prop where
  | tooLarge (written message) : ceiling < body.length → written <+: body → written.length ≤ ceiling →
      BodySettled ceiling announced body target (.error (.downloadSizeLimitError message))
        ⟨some written, target⟩
  | refused (message) : body.length ≤ ceiling →
      (body = [] ∨ ∃ n, announced = some n ∧ n ≠ body.length) →
      BodySettled ceiling announced body target (.error (.downloadIntegrityError message))
        ⟨some body, target⟩
  | accepted (snapshot) : body.length ≤ ceiling → body ≠ [] →
      (∀ n, announced = some n → n = body.length) → snapshot.sizeBytes = body.length →
      snapshot.sha256 = Python.sha256 body →
      BodySettled ceiling announced body target (.ok (.downloaded snapshot)) ⟨none, some body⟩

section Attempt

variable {downloader : MetSnapshotDownloader} {destination : String}
  {conditional : Option MetSnapshotConditional} {response : StreamingHttpResponse}
  {announced : Option Nat} {r : Except Exc DownloadResult} {dir dir' : MetDirectory}

theorem bodySettled_of_receiveSnapshot
    (h : (downloader.receiveSnapshot destination response).Takes
      (MetDirectory.UndisturbedStep response) dir r dir')
    (hend : ReadToEnd response.body) (hannounced : response.Announces announced) :
    BodySettled downloader.ceiling announced (chunksRead response.body) dir.target r dir' := by
  obtain ⟨_, _, hparse, hparsed⟩ := Program.takes_bind.mp h
  obtain ⟨rfl, rfl⟩ := Program.takes_ofExcept.mp hparse
  rw [contentLength_of_announces hannounced] at hparsed
  obtain ⟨opened, _, hopen, hopened⟩ := Program.takes_bind.mp hparsed
  obtain ⟨_, ⟨hstep₁, hsucceeds₁, -⟩, rfl⟩ := Program.takes_reply.mp hopen
  rcases opened with exc | ⟨⟨⟩⟩
  · exact hsucceeds₁.elim
  obtain rfl := hstep₁
  -- the loop, and the closing of the part file after it
  obtain ⟨_, _, hreceive, hreceived⟩ := Program.takes_bind.mp hopened
  obtain ⟨received, _, closed, hloop, hclose, rfl⟩ := hreceive.ensuring
  obtain ⟨_, ⟨hstep₂, hsucceeds₂, -⟩, rfl⟩ := Program.takes_reply.mp hclose
  rcases closed with exc | ⟨⟨⟩⟩
  · exact hsucceeds₂.elim
  obtain rfl := hstep₂
  have hbody : BodyReceived downloader.ceiling ([] ++ chunksRead response.body) _ _ _ :=
    bodyReceived_of_takes hloop hend (Nat.zero_le _)
  rw [List.nil_append] at hbody
  cases hbody with
  | tooLarge written message hlarge hprefix hfits =>
    obtain ⟨rfl, rfl⟩ := hreceived
    exact .tooLarge written message hlarge hprefix hfits
  | whole hfits =>
    dsimp only at hreceived
    split at hreceived
    · rename_i hempty
      obtain ⟨rfl, rfl⟩ := hreceived
      exact .refused _ hfits (.inl (List.length_eq_zero_iff.mp hempty))
    rename_i hempty
    obtain ⟨_, _, hcheck, hchecked⟩ := Program.takes_bind.mp hreceived
    obtain ⟨rfl, rfl⟩ := Program.takes_ofExcept.mp hcheck
    rcases checkLength_cases announced (chunksRead response.body).length with
      ⟨hagrees, hlength⟩ | ⟨hdiffers, message, hlength⟩
    · rw [hlength] at hchecked
      have hnonempty : chunksRead response.body ≠ [] := fun h => hempty (List.length_eq_zero_iff.mpr h)
      obtain ⟨replaced, _, hreplace, hreplaced⟩ := Program.takes_bind.mp hchecked
      obtain ⟨_, ⟨hstep₃, hsucceeds₃, -⟩, rfl⟩ := Program.takes_reply.mp hreplace
      rcases replaced with exc | ⟨⟨⟩⟩
      · exact hsucceeds₃.elim
      obtain ⟨written, hwritten, rfl⟩ := hstep₃
      cases hwritten
      obtain ⟨now, _, hclock, hclocked⟩ := Program.takes_bind.mp hreplaced
      obtain ⟨_, ⟨hstep₄, hsucceeds₄, -⟩, rfl⟩ := Program.takes_reply.mp hclock
      rcases now with exc | now
      · exact hsucceeds₄.elim
      obtain rfl := hstep₄
      obtain ⟨rfl, rfl⟩ := hclocked
      exact .accepted _ hfits hnonempty hagrees rfl rfl
    · rw [hlength] at hchecked
      obtain ⟨rfl, rfl⟩ := hchecked
      exact .refused message hfits (.inr hdiffers)

theorem bodySettled_of_attempt
    (h : (downloader.attempt destination conditional).Takes
      (MetDirectory.UndisturbedStep response) dir r dir')
    (hstatus : response.status = 200) (hend : ReadToEnd response.body)
    (hannounced : response.Announces announced) :
    BodySettled downloader.ceiling announced (chunksRead response.body) dir.target r dir' := by
  obtain ⟨answer, _, hrequest, hanswered⟩ := Program.takes_bind.mp h
  obtain ⟨_, ⟨hstep₁, hsucceeds₁, hanswer⟩, rfl⟩ := Program.takes_reply.mp hrequest
  rcases answer with exc | response'
  · exact hsucceeds₁.elim
  obtain rfl := hstep₁
  have hresponse : response' = response := hanswer
  subst hresponse
  obtain ⟨received, _, closed, hreceive, hclose, rfl⟩ := hanswered.ensuring
  obtain ⟨_, ⟨hstep₂, hsucceeds₂, -⟩, rfl⟩ := Program.takes_reply.mp hclose
  rcases closed with exc | ⟨⟨⟩⟩
  · exact hsucceeds₂.elim
  obtain rfl := hstep₂
  have h304 : ¬ (response'.status = 304 ∧ conditional.isSome) := by simp [hstatus]
  have hretry : response'.status ∉ retryableStatuses := by rw [hstatus]; decide
  rw [MetSnapshotDownloader.receive, MetSnapshotDownloader.receiveOn, if_neg h304, if_neg hretry,
    if_neg (by simp [hstatus])] at hreceive
  exact bodySettled_of_receiveSnapshot hreceive hend hannounced

/-- The staging loop accepts the file of an accepted body, however it is read. -/
theorem snapshotArtifact_of_accepted {ceiling : Nat} {body : Bytes} {snapshot : DownloadedMetSnapshot}
    {artifact : BronzeArtifact} {uri : String} {staging : Staging} (hfits : body.length ≤ ceiling)
    (hsha : snapshot.sha256 = Python.sha256 body) (hfile : staging.file.isFile = true)
    (hreads : ReadsAs staging.file (some body)) (hend : ReadToEnd staging.file.reads)
    (hfaults : ∀ n, staging.artifactSpool.write n = none)
    (hexpected : artifact.expectedSha256 = some snapshot.sha256) :
    snapshotArtifact ceiling artifact uri staging = .ok (.ofBytes body) := by
  have hbody : chunksRead staging.file.reads = body := (Option.some.inj (hreads hfile hend)).symm
  rw [← hbody]
  refine snapshotArtifact_complete hend hfaults (by rw [hbody]; exact hfits) fun expected h => ?_
  rw [hexpected] at h
  rw [hbody, ← hsha]
  exact Option.some.inj h

end Attempt

/-- For every run in which nothing fails, of one party among any others: an attempt refuses a body for
    its size if and only if it is longer than the ceiling, and has then written no more than that;
    otherwise for its length if and only if it is empty or not as long as announced; and otherwise
    leaves the body in the file, which the staging loop then accepts with the same size and digest. -/
theorem chunked_loops_agree {ι : Type} [DecidableEq ι] {i : ι} {dirs : ι → MetDirectory}
    {procs : ι → Program machineSignature Exc DownloadResult}
    {c : Config ι machineSignature (MachineState ι) Exc DownloadResult}
    {downloader : MetSnapshotDownloader} {destination : String}
    {conditional : Option MetSnapshotConditional} {response : StreamingHttpResponse}
    {announced : Option Nat} {body : Bytes} {r : Except Exc DownloadResult}
    (hr : (machineSystem ι).traced.Reachable ⟨(dirs, .empty), procs⟩ c)
    (hi : procs i = downloader.attempt destination conditional)
    (ho : (c.procs i).outcome = some r)
    (hundisturbed : Undisturbed response (c.shared.2.of i)) (hstatus : response.status = 200)
    (hend : ReadToEnd response.body) (hbody : chunksRead response.body = body)
    (hannounced : response.Announces announced) :
    ((∃ message, r = .error (.downloadSizeLimitError message)) ↔ downloader.ceiling < body.length) ∧
    (downloader.ceiling < body.length → ∃ written, (c.shared.1 i).part = some written ∧
      written <+: body ∧ written.length ≤ downloader.ceiling) ∧
    (body.length ≤ downloader.ceiling →
      ((∃ message, r = .error (.downloadIntegrityError message)) ↔
        body = [] ∨ ∃ n, announced = some n ∧ n ≠ body.length)) ∧
    (body.length ≤ downloader.ceiling → body ≠ [] → (∀ n, announced = some n → n = body.length) →
      ∃ snapshot, r = .ok (.downloaded snapshot) ∧ c.shared.1 i = ⟨none, some body⟩ ∧
        snapshot.sizeBytes = body.length ∧ snapshot.sha256 = Python.sha256 body ∧
        ∀ (artifact : BronzeArtifact) (uri : String) (staging : Staging),
          artifact.expectedSha256 = some snapshot.sha256 → staging.file.isFile = true →
          ReadsAs staging.file (c.shared.1 i).target → ReadToEnd staging.file.reads →
          (∀ n, staging.artifactSpool.write n = none) →
          ∃ s, snapshotArtifact downloader.ceiling artifact uri staging = .ok s ∧
            s.sizeBytes = snapshot.sizeBytes ∧ s.digest.hexdigest = snapshot.sha256 ∧
            s.spool.content = body) := by
  obtain ⟨history, hlog, htrace⟩ := System.Reachable.trace hr ho
  rw [show c.shared.2.of i = history from hlog] at hundisturbed
  have hsteps := steps_of_reachable hr i
  rw [show c.shared.2.of i = history from hlog] at hsteps
  rw [hi] at htrace
  have hsettled := bodySettled_of_attempt (htrace.takes (hsteps.assuming hundisturbed)) hstatus hend
    hannounced
  rw [hbody] at hsettled
  generalize c.shared.1 i = dir' at hsettled ⊢
  cases hsettled with
  | tooLarge written message hlarge hprefix hfits =>
    refine ⟨⟨fun _ => hlarge, fun _ => ⟨message, rfl⟩⟩, fun _ => ⟨written, rfl, hprefix, hfits⟩,
      fun h => ?_, fun h => ?_⟩
    · exact absurd hlarge (Nat.not_lt_of_le h)
    · exact absurd hlarge (Nat.not_lt_of_le h)
  | refused message hfits hrefused =>
    have hnot := Nat.not_lt_of_le hfits
    refine ⟨⟨nofun, fun h => absurd h hnot⟩, fun h => absurd h hnot,
      fun _ => ⟨fun _ => hrefused, fun _ => ⟨message, rfl⟩⟩, fun _ hnonempty hagrees => ?_⟩
    rcases hrefused with hempty | ⟨n, hn, hne⟩
    · exact absurd hempty hnonempty
    · exact absurd (hagrees n hn) hne
  | accepted snapshot hfits hnonempty hagrees hsize hsha =>
    have hnot := Nat.not_lt_of_le hfits
    refine ⟨⟨nofun, fun h => absurd h hnot⟩, fun h => absurd h hnot, fun _ => ⟨nofun, ?_⟩,
      fun _ _ _ => ⟨snapshot, rfl, rfl, hsize, hsha, ?_⟩⟩
    · rintro (hempty | ⟨n, hn, hne⟩)
      · exact absurd hempty hnonempty
      · exact absurd (hagrees n hn) hne
    · intro artifact uri staging hexpected hfile hreads hstaged hfaults
      refine ⟨.ofBytes body, ?_, hsize.symm, hsha.symm, rfl⟩
      exact snapshotArtifact_of_accepted hfits hsha hfile hreads hstaged hfaults hexpected

/-- A machine on which nothing fails. -/
def undisturbedMachine (response : StreamingHttpResponse) :
    System Unit machineSignature (Unit → MetDirectory) :=
  (machineSystem Unit).assuming (MachineOp.Undisturbed response)

section Ends

variable {response : StreamingHttpResponse}

/-- By induction on the reads: with a part file the loop always ends. -/
theorem receiveBody_ends {ceiling sizeBytes : Nat} {digest : Digest} {written : Bytes}
    {target : Option Bytes} (reads : List (Except Exc Bytes)) : ∃ r written',
    (undisturbedMachine response).Runs () (receiveBody ceiling reads sizeBytes digest)
      (fun _ => ⟨some written, target⟩) r (fun _ => ⟨some written', target⟩) := by
  induction reads generalizing sizeBytes digest written with
  | nil => exact ⟨_, _, .ret _ _⟩
  | cons read reads ih =>
    rcases read with exc | (_ | ⟨byte, bytes⟩)
    · exact ⟨_, _, .raise _ _⟩
    · exact ⟨_, _, .ret _ _⟩
    · simp only [receiveBody]
      split
      · exact ⟨_, _, .raise _ _⟩
      · obtain ⟨r, written', hrest⟩ := ih
        exact ⟨r, written', .bind (runs_alone (.writePart _) (.ok ()) ⟨trivial, trivial⟩ rfl
          ⟨written, rfl, rfl⟩) hrest⟩

theorem receiveSnapshot_ends (downloader : MetSnapshotDownloader) (destination : String)
    (response : StreamingHttpResponse) (now : AwareDatetime) (dir : MetDirectory) : ∃ r dir',
    (undisturbedMachine response).Runs () (downloader.receiveSnapshot destination response)
      (fun _ => dir) r (fun _ => dir') := by
  unfold MetSnapshotDownloader.receiveSnapshot MetSnapshotDownloader.receiveSnapshotOn
  dsimp only
  cases contentLength (normalizedHeaders response.headers) with
  | error exc => exact ⟨_, dir, .bind_error (.raise exc _)⟩
  | ok expectedLength =>
    have hopen : (undisturbedMachine response).Runs ()
        (.call .openPart .ofExcept : Program machineSignature Exc Unit) (fun _ => dir) (.ok ())
        (fun _ => { dir with part := some [] }) :=
      runs_alone .openPart (.ok ()) ⟨trivial, trivial⟩ rfl rfl
    obtain ⟨received, written, hbody⟩ : ∃ received written, (undisturbedMachine response).Runs ()
        (receiveBody downloader.ceiling response.body 0 .new) (fun _ => ⟨some [], dir.target⟩) received
        (fun _ => ⟨some written, dir.target⟩) := receiveBody_ends response.body
    have hclose : (undisturbedMachine response).Runs ()
        (.call .closePart .ofExcept : Program machineSignature Exc Unit)
        (fun _ => ⟨some written, dir.target⟩) (.ok ()) (fun _ => ⟨some written, dir.target⟩) :=
      runs_alone .closePart (.ok ()) ⟨trivial, trivial⟩ rfl rfl
    have hloop := hbody.ensuring hclose
    rcases received with exc | ⟨sizeBytes, digest⟩
    · exact ⟨_, _, .bind_ok rfl (.bind hopen (.bind_error hloop))⟩
    suffices hrest : ∃ r dir', (undisturbedMachine response).Runs () _ (fun _ => _) r (fun _ => dir') by
      obtain ⟨r, dir', hrest⟩ := hrest
      exact ⟨r, dir', .bind_ok rfl (.bind hopen (.bind hloop hrest))⟩
    dsimp only
    split
    · exact ⟨_, _, .raise _ _⟩
    cases checkLength expectedLength sizeBytes with
    | error exc => exact ⟨_, _, .bind_error (.raise exc _)⟩
    | ok _ =>
      refine ⟨_, _, .bind_ok rfl (.bind (runs_alone .replacePart (.ok ()) ⟨trivial, trivial⟩ rfl
        ⟨written, rfl, rfl⟩) (.bind (runs_alone .clock (.ok now) ⟨trivial, trivial⟩ rfl
          rfl) (.ret _ _)))⟩

/-- Where nothing fails, an attempt ends, whatever it is answered. -/
theorem attempt_ends (downloader : MetSnapshotDownloader) (destination : String)
    (conditional : Option MetSnapshotConditional) (response : StreamingHttpResponse)
    (now : AwareDatetime) (dir : MetDirectory) :
    ∃ r dir', (undisturbedMachine response).Runs () (downloader.attempt destination conditional)
      (fun _ => dir) r (fun _ => dir') := by
  have hreceive : ∃ r dir', (undisturbedMachine response).Runs ()
      (downloader.receive destination conditional response) (fun _ => dir) r (fun _ => dir') := by
    unfold MetSnapshotDownloader.receive MetSnapshotDownloader.receiveOn
    split
    · exact ⟨_, _, .bind (runs_alone .clock (.ok now) ⟨trivial, trivial⟩ rfl rfl)
        (.ret _ _)⟩
    split
    · exact ⟨_, _, .raise _ _⟩
    split
    · exact ⟨_, _, .raise _ _⟩
    · exact receiveSnapshot_ends downloader destination response now dir
  obtain ⟨r, dir', hreceived⟩ := hreceive
  refine ⟨r, dir', .bind (runs_alone (.request _ _) (.ok response) ⟨trivial, rfl⟩ rfl rfl) ?_⟩
  exact hreceived.ensuring (runs_alone .closeResponse (.ok ()) ⟨trivial, trivial⟩ rfl rfl)

end Ends

/-- A response that announces its four bytes, which come in two chunks. -/
def announcedResponse : StreamingHttpResponse :=
  { sampleResponse sampleChunks with headers := [("Content-Length", "4")] }

theorem announced_response : announcedResponse.Announces (some 4) :=
  ⟨"4", by decide +kernel, by decide +kernel⟩

/-- A downloader with this ceiling. -/
def sampleDownloaderUpTo (ceiling : Nat) : MetSnapshotDownloader :=
  { sampleDownloader with ceiling := ceiling }

theorem sample_attempted (ceiling : Nat) :
    ∃ (c : Config Unit machineSignature (MachineState Unit) Exc DownloadResult)
      (r : Except Exc DownloadResult),
      (machineSystem Unit).traced.Reachable ⟨(fun _ => ⟨none, none⟩, .empty),
        fun _ => (sampleDownloaderUpTo ceiling).attempt "/tmp/met" none⟩ c ∧
      (c.procs ()).outcome = some r ∧ Undisturbed announcedResponse (c.shared.2.of ()) := by
  obtain ⟨r, dir, hrun⟩ := attempt_ends (sampleDownloaderUpTo ceiling) "/tmp/met" none
    announcedResponse sampleInstant ⟨none, none⟩
  obtain ⟨log, hlog, htraced⟩ := hrun.traced (l := Log.empty) nofun
  let procs : Unit → Program machineSignature Exc DownloadResult :=
    fun _ => (sampleDownloaderUpTo ceiling).attempt "/tmp/met" none
  have ho : (Function.update procs () (.ofExcept r) ()).outcome = some r := by
    rw [Function.update_self]
    exact Program.outcome_ofExcept r
  exact ⟨_, r, htraced.reachable (rfl : procs () = _) .refl, ho, hlog⟩

/-- With room for its four bytes the body is downloaded, and staged from other chunks with the same
    size and digest; with room for three it is refused. -/
theorem chunked_loops_agree_sample :
    (∃ (c : Config Unit machineSignature (MachineState Unit) Exc DownloadResult)
      (snapshot : DownloadedMetSnapshot) (s : Snapshot),
      (machineSystem Unit).traced.Reachable ⟨(fun _ => ⟨none, none⟩, .empty),
        fun _ => (sampleDownloaderUpTo 4).attempt "/tmp/met" none⟩ c ∧
      (c.procs ()).outcome = some (.ok (.downloaded snapshot)) ∧
      c.shared.1 () = ⟨none, some sampleChunks.flatten⟩ ∧ snapshot.sizeBytes = 4 ∧
      snapshotArtifact 4 { sampleArtifact csv with expectedSha256 := some snapshot.sha256 } ""
        ⟨⟨true, [.ok [0x69], .ok [0x64, 0x0a, 0x31], .ok []]⟩, .none, .none⟩ = .ok s ∧
      s.sizeBytes = 4 ∧ s.digest.hexdigest = snapshot.sha256) ∧
    ∃ (c : Config Unit machineSignature (MachineState Unit) Exc DownloadResult) (message : String),
      (machineSystem Unit).traced.Reachable ⟨(fun _ => ⟨none, none⟩, .empty),
        fun _ => (sampleDownloaderUpTo 3).attempt "/tmp/met" none⟩ c ∧
      (c.procs ()).outcome = some (.error (.downloadSizeLimitError message)) := by
  have hend : ReadToEnd announcedResponse.body := (sampleResponse_read (by decide)).2
  have hbody : chunksRead announcedResponse.body = sampleChunks.flatten :=
    (sampleResponse_read (by decide)).1
  constructor
  · obtain ⟨c, r, hr, ho, hlog⟩ := sample_attempted 4
    have hagree := chunked_loops_agree hr rfl ho hlog rfl hend hbody announced_response
    obtain ⟨snapshot, rfl, hdir, hsize, -, hstaged⟩ :=
      hagree.2.2.2 (by decide) (by decide) (by simp [sampleChunks])
    obtain ⟨s, hs, hlength, hdigest, -⟩ := hstaged
      { sampleArtifact csv with expectedSha256 := some snapshot.sha256 } ""
      ⟨⟨true, [.ok [0x69], .ok [0x64, 0x0a, 0x31], .ok []]⟩, .none, .none⟩ rfl rfl
      (by rw [hdir]; exact fun _ _ => rfl) trivial fun _ => rfl
    exact ⟨c, snapshot, s, hr, ho, hdir, hsize, hs, hlength.trans hsize, hdigest⟩
  · obtain ⟨c, r, hr, ho, hlog⟩ := sample_attempted 3
    have hagree := chunked_loops_agree hr rfl ho hlog rfl hend hbody announced_response
    obtain ⟨message, rfl⟩ := hagree.1.mpr (by decide)
    exact ⟨c, message, hr, ho⟩

end EvidenceCartographer.Sources.Met
