import EvidenceCartographer.Concurrency.Takes
import EvidenceCartographer.Sources.Met.Download

/-! The file a download leaves.

    In every state a call can be in, the target is the old file or the whole body of one of the
    responses it was given. Up to its rename an attempt writes to the part file only; what follows the
    rename is the clock and the closing of the response, and where these succeed a call that raises,
    or finds nothing changed, has left the old file. Every way out of an attempt that failed unlinks
    the part file. -/

namespace EvidenceCartographer.Sources.Met

open Python Domain Application Infrastructure Concurrency

/-- A whole 200 response with this body, within the ceiling and as long as announced. -/
structure StreamingHttpResponse.Delivers (response : StreamingHttpResponse) (ceiling : Nat)
    (bytes : Bytes) : Prop where
  status : response.status = 200
  complete : ReadToEnd response.body
  body : chunksRead response.body = bytes
  nonempty : bytes ≠ []
  fits : bytes.length ≤ ceiling
  announced : ∀ value, (normalizedHeaders response.headers).lookup "content-length" = some value →
    int value = some (bytes.length : Int)

/-- The directory can be made, the part file be unlinked, the response be closed and the clock be
    read. -/
def MachineOp.Works (o : MachineOp) (r : machineSignature.Reply o) : Prop :=
  match o, r with
  | .makeDirectory, .error _ | .unlinkPart, .error _ | .closeResponse, .error _ | .clock, .error _ =>
    False
  | _, _ => True

/-- What a party was answered, in order. -/
abbrev MachineHistory := List machineSignature.Event

/-- All that is assumed to work has worked so far. -/
def Worked (history : MachineHistory) : Prop := ∀ event ∈ history, event.1.Works event.2

theorem Worked.of_prefix {history history' : MachineHistory} (h : Worked history')
    (hp : history <+: history') : Worked history := fun event hevent => h event (hp.subset hevent)

/-- The operations that do not write the target. -/
def MachineOp.KeepsTarget : MachineOp → Prop
  | .makeTemporary | .removeTemporary | .replacePart => False
  | _ => True

theorem MetDirectory.Step.target {dir dir' : MetDirectory} {o : MachineOp}
    {r : machineSignature.Reply o} (h : dir.Step o r dir') (ho : o.KeepsTarget) :
    dir'.target = dir.target := by
  have same : ∀ {dir₁ : MetDirectory}, dir' = dir₁ → dir₁.target = dir.target →
      dir'.target = dir.target := by
    rintro _ rfl htarget
    exact htarget
  cases o with
  | makeTemporary | removeTemporary | replacePart => exact ho.elim
  | makeDirectory | request | closeResponse | clock | decide => exact same h rfl
  | openTarget => exact same h.1 rfl
  | unlinkPart =>
    rcases r with exc | ⟨⟨⟩⟩
    · exact same h rfl
    · exact same h rfl
  | openPart =>
    rcases r with exc | ⟨⟨⟩⟩
    · exact h
    · exact same h rfl
  | writePart chunk =>
    rcases r with exc | ⟨⟨⟩⟩
    · exact h
    · obtain ⟨written, -, heq⟩ := h
      exact same heq rfl
  | closePart =>
    rcases r with exc | ⟨⟨⟩⟩
    · exact h
    · exact same h rfl

/-- The directories, and what the parties were answered. -/
abbrev MachineState (ι : Type) := (ι → MetDirectory) × Log ι machineSignature.Event

section Call

variable {ι : Type} {i : ι} {x x₁ x₂ x' : MachineState ι}

/-- Meanwhile the target was not written. -/
structure TargetKept (i : ι) (x x' : MachineState ι) : Prop where
  target : (x'.1 i).target = (x.1 i).target
  history : x.2.of i <+: x'.2.of i

theorem TargetKept.refl : TargetKept i x x := ⟨rfl, List.prefix_rfl⟩

theorem TargetKept.trans (h : TargetKept i x x₁) (h' : TargetKept i x₁ x₂) : TargetKept i x x₂ :=
  ⟨h'.target.trans h.target, h.history.trans h'.history⟩

variable (downloader : MetSnapshotDownloader) (conditional : Option MetSnapshotConditional)
  (old : Option Bytes)

/-- One of the responses in this history delivers these bytes. -/
def Delivered (history : MachineHistory) (bytes : Bytes) : Prop :=
  ∃ response, (⟨.request downloader.url (conditionalHeaders conditional), .ok response⟩ :
    machineSignature.Event) ∈ history ∧ response.Delivers downloader.ceiling bytes

/-- The old file, or one whole body. -/
def WholeFile (history : MachineHistory) (content : Option Bytes) : Prop :=
  content = old ∨ ∃ bytes, Delivered downloader conditional history bytes ∧ content = some bytes

/-- The file and its snapshot are of one whole body. -/
def SnapshotFile (history : MachineHistory) (content : Option Bytes)
    (snapshot : DownloadedMetSnapshot) : Prop :=
  ∃ bytes, Delivered downloader conditional history bytes ∧ content = some bytes ∧
    snapshot.sizeBytes = bytes.length ∧ snapshot.sha256 = Python.sha256 bytes

/-- Party `i` has a whole file, and the old one if everything has worked. -/
structure Pending (i : ι) (x : MachineState ι) : Prop where
  whole : WholeFile downloader conditional old (x.2.of i) (x.1 i).target
  kept : Worked (x.2.of i) → (x.1 i).target = old

/-- How an attempt or a call ends, but for the part file. -/
structure Ended (i : ι) (r : Except Exc DownloadResult) (x : MachineState ι) : Prop where
  whole : WholeFile downloader conditional old (x.2.of i) (x.1 i).target
  kept : (∀ snapshot, r ≠ .ok (.downloaded snapshot)) → Worked (x.2.of i) → (x.1 i).target = old
  downloaded : ∀ snapshot, r = .ok (.downloaded snapshot) →
    SnapshotFile downloader conditional (x.2.of i) (x.1 i).target snapshot

/-- How an attempt ends: one that returns has no part file. -/
structure Attempted (i : ι) (r : Except Exc DownloadResult) (x : MachineState ι) : Prop
    extends Ended downloader conditional old i r x where
  part : ∀ result, r = .ok result → (x.1 i).part = none

/-- How a call ends: where all has worked, without a part file. -/
structure Settled (i : ι) (r : Except Exc DownloadResult) (x : MachineState ι) : Prop
    extends Ended downloader conditional old i r x where
  part : Worked (x.2.of i) → (x.1 i).part = none

variable {downloader conditional old}

theorem Delivered.mono {history history' : MachineHistory} {bytes : Bytes}
    (h : Delivered downloader conditional history bytes) (hp : history <+: history') :
    Delivered downloader conditional history' bytes := by
  obtain ⟨response, hmem, hdelivers⟩ := h
  exact ⟨response, hp.subset hmem, hdelivers⟩

theorem WholeFile.kept
    (h : WholeFile downloader conditional old (x.2.of i) (x.1 i).target) (hk : TargetKept i x x') :
    WholeFile downloader conditional old (x'.2.of i) (x'.1 i).target := by
  rw [hk.target]
  rcases h with h | ⟨bytes, hdelivered, h⟩
  · exact .inl h
  · exact .inr ⟨bytes, hdelivered.mono hk.history, h⟩

theorem Pending.later (h : Pending downloader conditional old i x) (hk : TargetKept i x x') :
    Pending downloader conditional old i x' :=
  ⟨h.whole.kept hk, fun hworked => hk.target.trans (h.kept (hworked.of_prefix hk.history))⟩

theorem Pending.ended (h : Pending downloader conditional old i x) {r : Except Exc DownloadResult}
    (hr : ∀ snapshot, r ≠ .ok (.downloaded snapshot)) : Ended downloader conditional old i r x :=
  ⟨h.whole, fun _ => h.kept, fun snapshot hsnapshot => absurd hsnapshot (hr snapshot)⟩

theorem Pending.raised (h : Pending downloader conditional old i x) (exc : Exc) :
    Attempted downloader conditional old i (.error exc) x :=
  ⟨h.ended fun _ => nofun, fun _ => nofun⟩

theorem Pending.settled (h : Pending downloader conditional old i x)
    (hpart : Worked (x.2.of i) → (x.1 i).part = none) (exc : Exc) :
    Settled downloader conditional old i (.error exc) x :=
  ⟨(h.raised exc).toEnded, hpart⟩

theorem Ended.pending {exc : Exc} (h : Ended downloader conditional old i (.error exc) x) :
    Pending downloader conditional old i x := ⟨h.whole, h.kept fun _ => nofun⟩

theorem Ended.later {r : Except Exc DownloadResult} (h : Ended downloader conditional old i r x)
    (hk : TargetKept i x x') : Ended downloader conditional old i r x' := by
  refine ⟨h.whole.kept hk, fun hr hworked => ?_, fun snapshot hsnapshot => ?_⟩
  · exact hk.target.trans (h.kept hr (hworked.of_prefix hk.history))
  · obtain ⟨bytes, hdelivered, hcontent, hdescribes⟩ := h.downloaded snapshot hsnapshot
    exact ⟨bytes, hdelivered.mono hk.history, hk.target.trans hcontent, hdescribes⟩

/-- A failure that is assumed away leaves a whole file. -/
theorem WholeFile.raised (h : WholeFile downloader conditional old (x.2.of i) (x.1 i).target)
    (hfailed : ¬ Worked (x.2.of i)) (exc : Exc) :
    Attempted downloader conditional old i (.error exc) x :=
  ⟨⟨h, fun _ hworked => absurd hworked hfailed, fun _ => nofun⟩, fun _ => nofun⟩

variable [DecidableEq ι]

theorem targetKept_of_rely (h : (machineSystem ι).traced.rely i x x₁) : TargetKept i x x₁ := by
  obtain ⟨hdir, hlog⟩ := h
  refine ⟨congrArg MetDirectory.target hdir, ?_⟩
  exact hlog ▸ List.prefix_rfl

/-- The history goes on with what was answered. -/
theorem history_of_exec {o : MachineOp} {r : machineSignature.Reply o}
    (h : (machineSystem ι).traced.exec i o x r x') : x'.2.of i = x.2.of i ++ [⟨o, r⟩] := by
  rw [h.2, Log.of_push]

/-- One operation. -/
theorem targetKept_of_exec {o : MachineOp} {r : machineSignature.Reply o}
    (hrely : (machineSystem ι).traced.rely i x x₁)
    (hexec : (machineSystem ι).traced.exec i o x₁ r x₂) (ho : o.KeepsTarget) :
    TargetKept i x x₂ := by
  refine (targetKept_of_rely hrely).trans ⟨hexec.1.1.target ho, ?_⟩
  rw [history_of_exec hexec]
  exact List.prefix_append _ _

/-- A failure that is assumed away. -/
theorem not_worked_of_exec {o : MachineOp} {r : machineSignature.Reply o}
    (hexec : (machineSystem ι).traced.exec i o x r x') (hfails : ¬ o.Works r) :
    ¬ Worked (x'.2.of i) := by
  intro hworked
  have hmem : (⟨o, r⟩ : machineSignature.Event) ∈ x'.2.of i := by
    rw [history_of_exec hexec]
    exact List.mem_append_right _ (List.mem_singleton_self _)
  exact hfails (hworked _ hmem)

/-- What a received body has put into the part file. -/
structure Received (ceiling : Nat) (bytes : Bytes) (received : Nat × Digest) (dir : MetDirectory) :
    Prop where
  part : dir.part = some bytes
  size : received.1 = bytes.length
  digest : received.2.fed = bytes
  fits : bytes.length ≤ ceiling

/-- By induction on the reads: size, digest and part file keep describing the same bytes. -/
theorem safe_receiveBody {ceiling sizeBytes : Nat} {digest : Digest} {bytes : Bytes}
    {J : MachineState ι → Prop} (reads : List (Except Exc Bytes))
    (h : Received ceiling bytes (sizeBytes, digest) (x.1 i))
    (hJ : ∀ x', TargetKept i x x' → J x') :
    (machineSystem ι).traced.Safe i J (receiveBody ceiling reads sizeBytes digest)
      (fun r x' => TargetKept i x x' ∧ ∀ received, r = .ok received → ReadToEnd reads ∧
        Received ceiling (bytes ++ chunksRead reads) received (x'.1 i)) x := by
  induction reads generalizing x sizeBytes digest bytes with
  | nil =>
    refine ⟨.refl, ?_⟩
    rintro _ ⟨⟩
    rw [chunksRead, List.append_nil]
    exact ⟨trivial, h⟩
  | cons read reads ih =>
    rcases read with exc | (_ | ⟨byte, chunk⟩)
    · exact ⟨.refl, by simp⟩
    · refine ⟨.refl, ?_⟩
      rintro _ ⟨⟩
      rw [chunksRead, List.append_nil]
      exact ⟨trivial, h⟩
    simp only [receiveBody]
    split
    · exact ⟨.refl, by simp⟩
    rename_i hroom
    refine .bind (System.safe_reply fun x₁ hrely r x₂ hexec => ?_)
    have hkept := targetKept_of_exec hrely hexec trivial
    refine ⟨hJ x₂ hkept, ?_⟩
    rcases r with exc | ⟨⟨⟩⟩
    · exact ⟨hkept, by simp⟩
    obtain ⟨written, hwritten, hstep⟩ := hexec.1.1
    have hbytes : written = bytes := by
      rw [hrely.1, h.part] at hwritten
      exact (Option.some.inj hwritten).symm
    have hsize : sizeBytes = bytes.length := h.size
    have hnext : Received ceiling (bytes ++ byte :: chunk)
        (sizeBytes + (byte :: chunk).length, digest.update (byte :: chunk)) (x₂.1 i) := by
      refine ⟨by rw [hstep, hbytes], ?_, ?_, ?_⟩
      · dsimp only
        rw [hsize, List.length_append]
      · dsimp only
        rw [Digest.update_fed, h.digest]
      · rw [List.length_append, ← hsize]
        omega
    refine (ih hnext fun x' hk => hJ x' (hkept.trans hk)).mono ?_
    rintro r x₃ ⟨hk, hreceived⟩
    refine ⟨hkept.trans hk, fun received hr => ?_⟩
    obtain ⟨hend, hof⟩ := hreceived received hr
    rw [List.append_assoc] at hof
    exact ⟨hend, hof⟩

/-- A body that passes both checks is as long as announced. -/
theorem announced_of_checkLength {headers : List (String × String)} {expectedLength : Option Int}
    {sizeBytes : Nat} (hexpected : contentLength headers = .ok expectedLength)
    (hcheck : checkLength expectedLength sizeBytes = .ok ()) {value : String}
    (hvalue : headers.lookup "content-length" = some value) :
    int value = some (sizeBytes : Int) := by
  rw [contentLength, hvalue] at hexpected
  dsimp only at hexpected
  split at hexpected
  · cases hexpected
  rename_i parsed hparsed
  split at hexpected
  · cases hexpected
  cases hexpected
  simp only [checkLength] at hcheck
  split at hcheck
  · cases hcheck
  · rename_i heq
    rw [hparsed, not_not.mp heq]

variable {destination : String}

/-- The rename is the one step that writes the target, and what it writes is a whole body. -/
theorem safe_receiveSnapshot {response : StreamingHttpResponse}
    (h : Pending downloader conditional old i x) (hstatus : response.status = 200)
    (hresponse : (⟨.request downloader.url (conditionalHeaders conditional), .ok response⟩ :
      machineSignature.Event) ∈ x.2.of i) :
    (machineSystem ι).traced.Safe i
      (fun x => WholeFile downloader conditional old (x.2.of i) (x.1 i).target)
      (downloader.receiveSnapshot destination response)
      (Attempted downloader conditional old i) x := by
  refine .bind (System.safe_ofExcept.mpr ?_)
  cases hexpected : contentLength (normalizedHeaders response.headers) with
  | error exc => exact h.raised exc
  | ok expectedLength =>
  refine .bind (System.safe_reply fun x₁ hrely₁ r x₂ hopen => ?_)
  have hkept₂ := targetKept_of_exec hrely₁ hopen trivial
  refine ⟨h.whole.kept hkept₂, ?_⟩
  rcases r with exc | ⟨⟨⟩⟩
  · exact (h.later hkept₂).raised exc
  have hempty : Received downloader.ceiling [] (0, .new) (x₂.1 i) := by
    refine ⟨?_, rfl, rfl, Nat.zero_le _⟩
    rw [hopen.1.1]
  refine .bind (.ensuring ((safe_receiveBody response.body hempty
    fun x' hk => (h.later hkept₂).whole.kept hk).mono ?_))
  rintro received x₃ ⟨hkept₃, hreceived⟩
  refine System.safe_reply fun x₄ hrely₄ closed x₅ hclose => ?_
  have hkept₅ := (hkept₂.trans hkept₃).trans (targetKept_of_exec hrely₄ hclose trivial)
  refine ⟨h.whole.kept hkept₅, ?_⟩
  rcases closed with exc | ⟨⟨⟩⟩
  · exact (h.later hkept₅).raised exc
  rcases received with exc | ⟨sizeBytes, digest⟩
  · exact (h.later hkept₅).raised exc
  obtain ⟨hend, hof⟩ := hreceived _ rfl
  rw [List.nil_append] at hof
  have hsize : sizeBytes = (chunksRead response.body).length := hof.size
  have hpart : (x₅.1 i).part = some (chunksRead response.body) := by
    have hstep : x₅.1 i = x₄.1 i := hclose.1.1
    rw [hstep, hrely₄.1, hof.part]
  dsimp only
  split
  · exact (h.later hkept₅).raised _
  rename_i hne
  refine .bind (System.safe_ofExcept.mpr ?_)
  cases hcheck : checkLength expectedLength sizeBytes with
  | error exc => exact (h.later hkept₅).raised exc
  | ok _ =>
  have hdelivers : response.Delivers downloader.ceiling (chunksRead response.body) := by
    refine ⟨hstatus, hend, rfl, ?_, hof.fits, fun value hvalue => ?_⟩
    · rintro hnil
      rw [hnil] at hsize
      exact hne hsize
    · rw [← hsize]
      exact announced_of_checkLength hexpected hcheck hvalue
  refine .bind (System.safe_reply fun x₆ hrely₆ r x₇ hreplace => ?_)
  have hkept₆ := hkept₅.trans (targetKept_of_rely hrely₆)
  have hhistory₇ : x₆.2.of i <+: x₇.2.of i := by
    rw [history_of_exec hreplace]
    exact List.prefix_append _ _
  rcases r with exc | ⟨⟨⟩⟩
  · have hkept₇ : TargetKept i x x₇ := by
      have hstep : x₇.1 i = x₆.1 i := hreplace.1.1
      exact hkept₆.trans ⟨by rw [hstep], hhistory₇⟩
    exact ⟨h.whole.kept hkept₇, (h.later hkept₇).raised exc⟩
  obtain ⟨written, hwritten, hstep⟩ := hreplace.1.1
  have hwritten' : written = chunksRead response.body := by
    rw [hrely₆.1, hpart] at hwritten
    exact (Option.some.inj hwritten).symm
  subst hwritten'
  have hdelivered : Delivered downloader conditional (x₇.2.of i) (chunksRead response.body) :=
    ⟨response, (hkept₆.history.trans hhistory₇).subset hresponse, hdelivers⟩
  have hwhole : WholeFile downloader conditional old (x₇.2.of i) (x₇.1 i).target :=
    .inr ⟨_, hdelivered, by rw [hstep]⟩
  refine ⟨hwhole, .bind (System.safe_reply fun x₈ hrely₈ r x₉ hclock => ?_)⟩
  have hkept₉ := targetKept_of_exec hrely₈ hclock trivial
  refine ⟨hwhole.kept hkept₉, ?_⟩
  rcases r with exc | retrievedAt
  · exact (hwhole.kept hkept₉).raised (not_worked_of_exec hclock id) exc
  have hdir : x₉.1 i = ⟨none, some (chunksRead response.body)⟩ := by
    have hsame : x₉.1 i = x₈.1 i := hclock.1.1
    rw [hsame, hrely₈.1, hstep]
  refine ⟨⟨hwhole.kept hkept₉, fun hr => absurd rfl (hr _), ?_⟩, fun _ _ => by rw [hdir]⟩
  rintro _ ⟨⟩
  refine ⟨_, hdelivered.mono hkept₉.history, by rw [hdir], hsize, ?_⟩
  have hfed : digest.fed = chunksRead response.body := hof.digest
  dsimp only
  rw [Digest.hexdigest, hfed]

theorem safe_attempt (h : Pending downloader conditional old i x) (hpart : (x.1 i).part = none) :
    (machineSystem ι).traced.Safe i
      (fun x => WholeFile downloader conditional old (x.2.of i) (x.1 i).target)
      (downloader.attempt destination conditional)
      (Attempted downloader conditional old i) x := by
  refine .bind (System.safe_reply fun x₁ hrely₁ r x₂ hrequest => ?_)
  have hkept₂ := targetKept_of_exec hrely₁ hrequest trivial
  refine ⟨h.whole.kept hkept₂, ?_⟩
  rcases r with exc | response
  · exact (h.later hkept₂).raised exc
  have h₂ := h.later hkept₂
  have hpart₂ : (x₂.1 i).part = none := by
    have hstep : x₂.1 i = x₁.1 i := hrequest.1.1
    rw [hstep, hrely₁.1, hpart]
  have hreceive : (machineSystem ι).traced.Safe i
      (fun x => WholeFile downloader conditional old (x.2.of i) (x.1 i).target)
      (downloader.receive destination conditional response)
      (Attempted downloader conditional old i) x₂ := by
    unfold MetSnapshotDownloader.receive MetSnapshotDownloader.receiveOn
    split
    · refine .bind (System.safe_reply fun x₃ hrely₃ r x₄ hclock => ?_)
      have hkept₄ := targetKept_of_exec hrely₃ hclock trivial
      refine ⟨h₂.whole.kept hkept₄, ?_⟩
      rcases r with exc | retrievedAt
      · exact (h₂.later hkept₄).raised exc
      refine ⟨(h₂.later hkept₄).ended fun _ => nofun, fun _ _ => ?_⟩
      have hstep : x₄.1 i = x₃.1 i := hclock.1.1
      rw [hstep, hrely₃.1, hpart₂]
    split
    · exact h₂.raised _
    split
    · exact h₂.raised _
    · rename_i hstatus
      refine safe_receiveSnapshot h₂ (not_not.mp hstatus) ?_
      rw [history_of_exec hrequest]
      exact List.mem_append_right _ (List.mem_singleton_self _)
  refine .ensuring (hreceive.mono fun received x₃ hattempted => ?_)
  refine System.safe_reply fun x₄ hrely₄ closed x₅ hclose => ?_
  have hkept₅ := targetKept_of_exec hrely₄ hclose trivial
  refine ⟨hattempted.whole.kept hkept₅, ?_⟩
  rcases closed with exc | ⟨⟨⟩⟩
  · exact (hattempted.whole.kept hkept₅).raised (not_worked_of_exec hclose id) exc
  · refine ⟨hattempted.toEnded.later hkept₅, fun result hresult => ?_⟩
    have hstep : x₅.1 i = x₄.1 i := hclose.1.1
    rw [hstep, hrely₄.1]
    exact hattempted.part result hresult

/-- Unlinking the part file, after a failure. -/
theorem safe_unlink {Q : Except Exc Unit → MachineState ι → Prop}
    (h : Pending downloader conditional old i x)
    (hQ : ∀ r x', Pending downloader conditional old i x' →
      (∀ exc, r = .error exc → ¬ Worked (x'.2.of i)) → (r = .ok () → (x'.1 i).part = none) → Q r x') :
    (machineSystem ι).traced.Safe i
      (fun x => WholeFile downloader conditional old (x.2.of i) (x.1 i).target)
      (.call .unlinkPart .ofExcept : Program machineSignature Exc Unit) Q x := by
  refine System.safe_reply fun x₁ hrely r x₂ hunlink => ?_
  have h₂ := h.later (targetKept_of_exec hrely hunlink trivial)
  refine ⟨h₂.whole, hQ r x₂ h₂ ?_ ?_⟩
  · rintro exc rfl
    exact not_worked_of_exec hunlink id
  · rintro rfl
    rw [hunlink.1.1]

/-- A failure that is not retried. -/
theorem safe_reraise (h : Pending downloader conditional old i x) (exc : Exc) :
    (machineSystem ι).traced.Safe i
      (fun x => WholeFile downloader conditional old (x.2.of i) (x.1 i).target)
      ((.call .unlinkPart .ofExcept : Program machineSignature Exc Unit).bind fun _ => .raise exc)
      (Settled downloader conditional old i) x := by
  refine .bind (safe_unlink h fun r x' h' hfailed hunlinked => ?_)
  rcases r with exc' | ⟨⟨⟩⟩
  · exact h'.settled (fun hworked => absurd hworked (hfailed exc' rfl)) exc'
  · exact h'.settled (fun _ => hunlinked rfl) exc

/-- A failure that may be retried, where the retry starts without a part file. -/
theorem safe_retryOr {number : Nat} {failure : Exc}
    {next : RetryDecision → Program machineSignature Exc DownloadResult}
    (h : Pending downloader conditional old i x)
    (hretry : ∀ x, Pending downloader conditional old i x → (x.1 i).part = none →
      (machineSystem ι).traced.Safe i
        (fun x => WholeFile downloader conditional old (x.2.of i) (x.1 i).target) (next .retry)
        (Settled downloader conditional old i) x)
    (hstop : next .stop = .raise failure) :
    (machineSystem ι).traced.Safe i
      (fun x => WholeFile downloader conditional old (x.2.of i) (x.1 i).target)
      ((.call .unlinkPart .ofExcept : Program machineSignature Exc Unit).bind fun _ =>
        if number < downloader.maxAttempts then
          (.call (.decide failure number) .ofExcept :
            Program machineSignature Exc RetryDecision).bind next
        else .raise failure) (Settled downloader conditional old i) x := by
  refine .bind (safe_unlink h fun r x' h' hfailed hunlinked => ?_)
  rcases r with exc | ⟨⟨⟩⟩
  · exact h'.settled (fun hworked => absurd hworked (hfailed exc rfl)) exc
  dsimp only
  split
  · refine .bind (System.safe_reply fun x₁ hrely r x₂ hdecide => ?_)
    have h₂ := h'.later (targetKept_of_exec hrely hdecide trivial)
    have hpart₂ : (x₂.1 i).part = none := by
      have hstep : x₂.1 i = x₁.1 i := hdecide.1.1
      rw [hstep, hrely.1, hunlinked rfl]
    refine ⟨h₂.whole, ?_⟩
    rcases r with exc | (_ | _)
    · exact h₂.settled (fun _ => hpart₂) exc
    · exact hretry x₂ h₂ hpart₂
    · dsimp only
      rw [hstop]
      exact h₂.settled (fun _ => hpart₂) failure
  · exact h'.settled (fun _ => hunlinked rfl) failure

/-- By induction on the attempts that remain. -/
theorem safe_attempts (remaining number : Nat) (h : Pending downloader conditional old i x)
    (hpart : remaining = 0 → (x.1 i).part = none) :
    (machineSystem ι).traced.Safe i
      (fun x => WholeFile downloader conditional old (x.2.of i) (x.1 i).target)
      (downloader.attempts destination conditional remaining number)
      (Settled downloader conditional old i) x := by
  induction remaining generalizing number x with
  | zero => exact h.settled (fun _ => hpart rfl) _
  | succ remaining ih =>
    have hbody : (machineSystem ι).traced.Safe i
        (fun x => WholeFile downloader conditional old (x.2.of i) (x.1 i).target)
        ((.call .unlinkPart .ofExcept : Program machineSignature Exc Unit).bind fun _ =>
          downloader.attempt destination conditional) (Attempted downloader conditional old i) x := by
      refine .bind (safe_unlink h fun r x' h' hfailed hunlinked => ?_)
      rcases r with exc' | ⟨⟨⟩⟩
      · exact h'.raised exc'
      · exact safe_attempt h' (hunlinked rfl)
    refine .handle (hbody.mono ?_)
    rintro (exc | result) x₁ hattempted
    · have h₁ := hattempted.toEnded.pending
      dsimp only
      split
      · exact safe_reraise h₁ _
      · exact safe_retryOr h₁ (fun x h hpart => ih (number + 1) h fun _ => hpart) rfl
      · exact safe_retryOr h₁ (fun x h hpart => ih (number + 1) h fun _ => hpart) rfl
      · exact safe_reraise h₁ _
      · exact safe_retryOr h₁ (fun x h hpart => ih (number + 1) h fun _ => hpart) rfl
    · exact ⟨hattempted.toEnded, fun _ => hattempted.part result rfl⟩

/-- One call. -/
theorem safe_downloaderRun (h : Pending downloader conditional old i x) :
    (machineSystem ι).traced.Safe i
      (fun x => WholeFile downloader conditional old (x.2.of i) (x.1 i).target)
      (downloader.run destination conditional) (Settled downloader conditional old i) x := by
  refine .bind (.handle (System.safe_reply fun x₁ hrely r x₂ hmake => ?_))
  have h₂ := h.later (targetKept_of_exec hrely hmake trivial)
  refine ⟨h₂.whole, ?_⟩
  rcases r with exc | ⟨⟨⟩⟩
  · have hfailed : ¬ Worked (x₂.2.of i) := not_worked_of_exec hmake id
    dsimp only
    split
    · exact h₂.settled (fun hworked => absurd hworked hfailed) _
    · exact h₂.settled (fun hworked => absurd hworked hfailed) _
  · exact safe_attempts downloader.maxAttempts 1 h₂ fun hzero =>
      absurd hzero (Nat.one_le_iff_ne_zero.mp downloader.maxAttempts_pos)

theorem safe_download_settled (h : Pending downloader none old i x) :
    (machineSystem ι).traced.Safe i
      (fun x => WholeFile downloader none old (x.2.of i) (x.1 i).target)
      (downloader.download destination)
      (fun r x' => Settled downloader none old i (r.map .downloaded) x') x := by
  refine .bind ((safe_downloaderRun h).mono ?_)
  rintro (exc | snapshot | answer) x' hsettled
  · exact hsettled
  · exact hsettled
  · have hpending : Pending downloader none old i x' :=
      ⟨hsettled.whole, hsettled.kept fun _ => nofun⟩
    exact hpending.settled hsettled.part _

omit [DecidableEq ι] in
/-- A returned snapshot describes the file that the call has left. -/
theorem safe_download {dirs : ι → MetDirectory} : (machineSystem ι).Safe i (fun _ => True)
    (downloader.download destination)
    (fun r dirs' => ∀ snapshot, r = .ok snapshot → snapshot.Describes (dirs' i).target) dirs := by
  classical
  have hstart : Pending downloader none (dirs i).target i (dirs, Log.empty) :=
    ⟨.inl rfl, fun _ => rfl⟩
  refine System.Safe.untraced (((safe_download_settled hstart).weaken fun _ _ => trivial).mono ?_)
  rintro r x' hsettled snapshot rfl
  obtain ⟨bytes, -, hcontent, hdescribes⟩ := hsettled.downloaded snapshot rfl
  exact ⟨bytes, hcontent, hdescribes⟩

/-- The two files of a call in progress, or ended. -/
structure FileAtomic (downloader : MetSnapshotDownloader)
    (conditional : Option MetSnapshotConditional) (old : Option Bytes) (history : MachineHistory)
    (dir : MetDirectory) (outcome : Option (Except Exc DownloadResult)) : Prop where
  whole : WholeFile downloader conditional old history dir.target
  raised : ∀ exc, outcome = some (.error exc) → dir.target = old
  notModified : ∀ answer, outcome = some (.ok (.notModified answer)) → dir.target = old
  downloaded : ∀ snapshot, outcome = some (.ok (.downloaded snapshot)) →
    SnapshotFile downloader conditional history dir.target snapshot
  no_part : outcome ≠ none → dir.part = none

theorem Settled.rely {r : Except Exc DownloadResult}
    (h : Settled downloader conditional old i r x)
    (hrely : (machineSystem ι).traced.rely i x x') :
    Settled downloader conditional old i r x' := by
  have hk := targetKept_of_rely hrely
  refine ⟨h.toEnded.later hk, fun hworked => ?_⟩
  rw [hrely.1]
  exact h.part (hworked.of_prefix hk.history)

theorem fileAtomic_of_guarded {α : Type} {f : α → DownloadResult}
    {c : Config ι machineSignature (MachineState ι) Exc α}
    (h : (machineSystem ι).traced.Guarded i
      (fun x => WholeFile downloader conditional old (x.2.of i) (x.1 i).target)
      (fun r x => Settled downloader conditional old i (r.map f) x) c)
    (hworked : Worked (c.shared.2.of i)) :
    FileAtomic downloader conditional old (c.shared.2.of i) (c.shared.1 i)
      ((c.procs i).outcome.map fun r => r.map f) := by
  have settled : ∀ r, ((c.procs i).outcome.map fun r => r.map f) = some r →
      Settled downloader conditional old i r c.shared := by
    intro r hr
    obtain ⟨r', hr', rfl⟩ := Option.map_eq_some_iff.mp hr
    exact h.post (fun _ _ hrely hsettled => hsettled.rely hrely) hr'
  refine ⟨h.inv, fun exc hr => ?_, fun answer hr => ?_, fun snapshot hr => ?_, fun hr => ?_⟩
  · exact (settled _ hr).kept (fun _ => nofun) hworked
  · exact (settled _ hr).kept (fun _ => nofun) hworked
  · exact (settled _ hr).downloaded snapshot rfl
  · obtain ⟨r, hr⟩ := Option.ne_none_iff_exists'.mp hr
    exact (settled r hr).part hworked

/-- At every step of a call the target is the old file or the whole body of one response; a call that
    raises or finds nothing changed has left the old file, a call that returns a snapshot has left
    what it describes, and none has left a part file. -/
theorem download_atomic (downloader : MetSnapshotDownloader) (destination : String) (i : ι)
    (dirs : ι → MetDirectory) :
    (∀ (procs : ι → Program machineSignature Exc DownloadedMetSnapshot) c,
      (machineSystem ι).traced.Reachable ⟨(dirs, .empty), procs⟩ c →
      procs i = downloader.download destination → Worked (c.shared.2.of i) →
      FileAtomic downloader none (dirs i).target (c.shared.2.of i) (c.shared.1 i)
        ((c.procs i).outcome.map fun r => r.map .downloaded)) ∧
    ∀ (conditional : MetSnapshotConditional)
      (procs : ι → Program machineSignature Exc DownloadResult) c,
      (machineSystem ι).traced.Reachable ⟨(dirs, .empty), procs⟩ c →
      procs i = downloader.downloadIfChanged destination conditional → Worked (c.shared.2.of i) →
      FileAtomic downloader (some conditional) (dirs i).target (c.shared.2.of i) (c.shared.1 i)
        (c.procs i).outcome := by
  have hstart : ∀ conditional,
      Pending downloader conditional (dirs i).target i (dirs, Log.empty) :=
    fun _ => ⟨.inl rfl, fun _ => rfl⟩
  have stable : ∀ {conditional} (x x' : MachineState ι), (machineSystem ι).traced.rely i x x' →
      WholeFile downloader conditional (dirs i).target (x.2.of i) (x.1 i).target →
      WholeFile downloader conditional (dirs i).target (x'.2.of i) (x'.1 i).target :=
    fun _ _ hrely h => h.kept (targetKept_of_rely hrely)
  refine ⟨fun procs c hr hrun hworked => ?_, fun conditional procs c hr hrun hworked => ?_⟩
  · exact fileAtomic_of_guarded
      (hr.started hrun stable (hstart none).whole (safe_download_settled (hstart none))) hworked
  · have hsafe : (machineSystem ι).traced.Safe i
        (fun x => WholeFile downloader (some conditional) (dirs i).target (x.2.of i) (x.1 i).target)
        (downloader.downloadIfChanged destination conditional)
        (fun r x => Settled downloader (some conditional) (dirs i).target i (r.map id) x)
        (dirs, .empty) := by
      refine (safe_downloaderRun (hstart (some conditional))).mono fun r x hsettled => ?_
      rw [Except.map_id]
      exact hsettled
    have hatomic := fileAtomic_of_guarded (hr.started hrun stable (hstart _).whole hsafe) hworked
    simpa [Except.map_id] using hatomic

end Call

section Sample

def sampleDownloader : MetSnapshotDownloader :=
  ⟨"https://museum.example/MetObjects.csv", 3, maxSinglePutSizeBytes, by decide⟩

/-- A response whose body comes in these chunks. -/
def sampleResponse (chunks : List Bytes) : StreamingHttpResponse :=
  ⟨200, [], "https://museum.example/MetObjects.csv", chunks.map .ok ++ [.ok []]⟩

/-- Its snapshot, where the chunks make up these bytes. -/
def sampleDownloaded (bytes : Bytes) (h : bytes.length ≠ 0) : DownloadedMetSnapshot :=
  sampleDownloader.snapshotOf "/tmp/met" (sampleResponse [bytes]) bytes sampleInstant h

theorem sampleResponse_read {chunks : List Bytes} (h : [] ∉ chunks) :
    chunksRead (sampleResponse chunks).body = chunks.flatten ∧
      ReadToEnd (sampleResponse chunks).body := by
  refine ⟨?_, (readToEnd_append h).mpr trivial⟩
  show chunksRead (chunks.map .ok ++ [.ok []]) = _
  rw [chunksRead_append h, chunksRead, List.append_nil]

theorem sample_download {chunks : List Bytes} (h : [] ∉ chunks) {bytes : Bytes}
    (hbytes : chunks.flatten = bytes) (hne : bytes.length ≠ 0)
    (hfit : bytes.length ≤ maxSinglePutSizeBytes) (dir : MetDirectory) :
    workingMachine.Runs () (sampleDownloader.download "/tmp/met") (fun _ => dir)
      (.ok (sampleDownloaded bytes hne)) (fun _ => ⟨none, some bytes⟩) := by
  obtain ⟨hread, hend⟩ := sampleResponse_read h
  rw [hbytes] at hread
  subst hread
  exact runs_download sampleInstant rfl hend hfit hne rfl rfl

/-- A history that steps through the states of a directory is a run. -/
theorem reached_of_history {α : Type} {p : Program machineSignature Exc α}
    {history : MachineHistory} {r : Except Exc α} (dir : MetDirectory) {dir' : MetDirectory}
    (h : p.Trace history r)
    (hsteps : Program.Steps (fun o x dir dir' => MetDirectory.Step dir o x dir') dir history dir') :
    ∃ c : Config Unit machineSignature (MachineState Unit) Exc α,
      (machineSystem Unit).traced.Reachable ⟨(fun _ => dir, .empty), fun _ => p⟩ c ∧
      c.procs () = .ofExcept r ∧ c.shared.1 () = dir' ∧ c.shared.2.of () = history := by
  have halone : Program.Steps (fun o x s s' => (machineSystem Unit).exec () o s x s')
      (fun _ => dir) history (fun _ => dir') :=
    hsteps.map (fun dir _ => dir) fun _ _ _ _ hstep => ⟨hstep, fun _ hne => absurd rfl hne⟩
  obtain ⟨log, hlog, hrun⟩ := System.runs_of_steps (i := ()) h halone Log.empty
  let procs : Unit → Program machineSignature Exc α := fun _ => p
  have hproc : Function.update procs () (.ofExcept r) () = .ofExcept r := Function.update_self ..
  exact ⟨_, hrun.reachable (rfl : procs () = p) .refl, hproc, rfl, hlog⟩

/-- The chunks of a small file. -/
def sampleChunks : List Bytes := [[0x69, 0x64], [0x0a, 0x31]]

def sampleReset : Exc := .osError "ConnectionResetError" "connection reset"

/-- The first attempt fails within the body, and the second one downloads it. -/
def sampleRetriedHistory : MachineHistory :=
  [⟨.makeDirectory, .ok ()⟩, ⟨.unlinkPart, .ok ()⟩,
    ⟨.request sampleDownloader.url [],
      .ok { sampleResponse [] with body := [.ok [0x69], .error sampleReset] }⟩,
    ⟨.openPart, .ok ()⟩, ⟨.writePart [0x69], .ok ()⟩, ⟨.closePart, .ok ()⟩, ⟨.closeResponse, .ok ()⟩,
    ⟨.unlinkPart, .ok ()⟩,
    ⟨.decide (.retryableHttpDownloadError ("HTTP download failed for " ++ sampleDownloader.url ++
      ": " ++ sampleReset.str)) 1, .ok .retry⟩,
    ⟨.unlinkPart, .ok ()⟩, ⟨.request sampleDownloader.url [], .ok (sampleResponse sampleChunks)⟩,
    ⟨.openPart, .ok ()⟩, ⟨.writePart [0x69, 0x64], .ok ()⟩, ⟨.writePart [0x0a, 0x31], .ok ()⟩,
    ⟨.closePart, .ok ()⟩, ⟨.replacePart, .ok ()⟩, ⟨.clock, .ok sampleInstant⟩,
    ⟨.closeResponse, .ok ()⟩]

/-- The disk is full after the first chunk, and the decider gives up. -/
def sampleFullHistory : MachineHistory :=
  [⟨.makeDirectory, .ok ()⟩, ⟨.unlinkPart, .ok ()⟩,
    ⟨.request sampleDownloader.url [], .ok (sampleResponse sampleChunks)⟩,
    ⟨.openPart, .ok ()⟩, ⟨.writePart [0x69, 0x64], .ok ()⟩,
    ⟨.writePart [0x0a, 0x31], .error (.osError "OSError" "no space left on device")⟩,
    ⟨.closePart, .ok ()⟩, ⟨.closeResponse, .ok ()⟩, ⟨.unlinkPart, .ok ()⟩,
    ⟨.decide (.retryableHttpDownloadError ("HTTP download failed for " ++ sampleDownloader.url ++
      ": " ++ Exc.str (.osError "OSError" "no space left on device"))) 1, .ok .stop⟩]

/-- Nothing has changed. -/
def sampleUnchangedHistory : MachineHistory :=
  [⟨.makeDirectory, .ok ()⟩, ⟨.unlinkPart, .ok ()⟩,
    ⟨.request sampleDownloader.url [("If-None-Match", "tag")],
      .ok { sampleResponse [] with status := 304 }⟩,
    ⟨.clock, .ok sampleInstant⟩, ⟨.closeResponse, .ok ()⟩]

theorem sampleChunks_length : sampleChunks.flatten.length ≠ 0 := by decide

theorem sample_retriedTrace : (sampleDownloader.download "/tmp/met").Trace sampleRetriedHistory
    (.ok (sampleDownloaded sampleChunks.flatten sampleChunks_length)) :=
  .call (.call (.call (.call (.call (.call (.call (.call (.call (.call (.call (.call (.call (.call
    (.call (.call (.call (.call ⟨rfl, rfl⟩)))))))))))))))))

theorem sample_fullTrace : ∃ exc,
    (sampleDownloader.download "/tmp/met").Trace sampleFullHistory (.error exc) :=
  ⟨_, .call (.call (.call (.call (.call (.call (.call (.call (.call (.call ⟨rfl, rfl⟩)))))))))⟩

theorem sample_unchangedTrace : ∃ answer,
    (sampleDownloader.downloadIfChanged "/tmp/met" ⟨some "tag", none⟩).Trace sampleUnchangedHistory
      (.ok (.notModified answer)) :=
  ⟨_, .call (.call (.call (.call (.call ⟨rfl, rfl⟩))))⟩

/-- Over the file of an earlier call and the part file of one that was stopped: a body that comes at
    the second attempt replaces the file; a disk that is full leaves it, and so does a 304. -/
theorem download_atomic_sample :
    (∃ c : Config Unit machineSignature (MachineState Unit) Exc DownloadedMetSnapshot,
      (machineSystem Unit).traced.Reachable ⟨(fun _ => ⟨some [66, 67], some [66]⟩, .empty),
        fun _ => sampleDownloader.download "/tmp/met"⟩ c ∧
      c.shared.2.of () = sampleRetriedHistory ∧
      c.procs () = .ret (sampleDownloaded sampleChunks.flatten sampleChunks_length) ∧
      (c.shared.1 ()).part = none ∧
      SnapshotFile sampleDownloader none (c.shared.2.of ()) (c.shared.1 ()).target
        (sampleDownloaded sampleChunks.flatten sampleChunks_length)) ∧
    (∃ (c : Config Unit machineSignature (MachineState Unit) Exc DownloadedMetSnapshot) (exc : Exc),
      (machineSystem Unit).traced.Reachable ⟨(fun _ => ⟨some [66, 67], some [66]⟩, .empty),
        fun _ => sampleDownloader.download "/tmp/met"⟩ c ∧
      c.shared.2.of () = sampleFullHistory ∧ c.procs () = .raise exc ∧
      c.shared.1 () = ⟨none, some [66]⟩) ∧
    ∃ (c : Config Unit machineSignature (MachineState Unit) Exc DownloadResult)
      (answer : MetSnapshotNotModified),
      (machineSystem Unit).traced.Reachable ⟨(fun _ => ⟨some [66, 67], some [66]⟩, .empty),
        fun _ => sampleDownloader.downloadIfChanged "/tmp/met" ⟨some "tag", none⟩⟩ c ∧
      c.shared.2.of () = sampleUnchangedHistory ∧ c.procs () = .ret (.notModified answer) ∧
      c.shared.1 () = ⟨none, some [66]⟩ := by
  have hatomic := download_atomic sampleDownloader "/tmp/met" ()
    fun _ => ⟨some [66, 67], some [66]⟩
  have hends : ∀ {dir : MetDirectory}, dir.target = some [66] → dir.part = none →
      dir = ⟨none, some [66]⟩ := by
    rintro ⟨part, target⟩ rfl rfl
    rfl
  refine ⟨?_, ?_, ?_⟩
  · obtain ⟨c, hr, hret, -, hlog⟩ := reached_of_history ⟨some [66, 67], some [66]⟩
      sample_retriedTrace
      ⟨_, rfl, _, rfl, _, rfl, _, rfl, _, ⟨_, rfl, rfl⟩, _, rfl, _, rfl, _, rfl, _, rfl, _, rfl, _, rfl,
        _, rfl, _, ⟨_, rfl, rfl⟩, _, ⟨_, rfl, rfl⟩, _, rfl, _, ⟨_, rfl, rfl⟩, _, rfl, _, rfl, rfl⟩
    have hworked : Worked (c.shared.2.of ()) := by
      rw [hlog]
      simp [Worked, sampleRetriedHistory, MachineOp.Works]
    have hfile := hatomic.1 _ c hr rfl hworked
    rw [hret] at hfile
    exact ⟨c, hr, hlog, hret, hfile.no_part nofun, hfile.downloaded _ rfl⟩
  · obtain ⟨exc, htrace⟩ := sample_fullTrace
    obtain ⟨c, hr, hraise, -, hlog⟩ := reached_of_history ⟨some [66, 67], some [66]⟩ htrace
      ⟨_, rfl, _, rfl, _, rfl, _, rfl, _, ⟨_, rfl, rfl⟩, _, rfl, _, rfl, _, rfl, _, rfl, _, rfl, rfl⟩
    have hworked : Worked (c.shared.2.of ()) := by
      rw [hlog]
      simp [Worked, sampleFullHistory, MachineOp.Works]
    have hfile := hatomic.1 _ c hr rfl hworked
    rw [hraise] at hfile
    exact ⟨c, exc, hr, hlog, hraise, hends (hfile.raised exc rfl) (hfile.no_part nofun)⟩
  · obtain ⟨answer, htrace⟩ := sample_unchangedTrace
    obtain ⟨c, hr, hret, -, hlog⟩ := reached_of_history ⟨some [66, 67], some [66]⟩ htrace
      ⟨_, rfl, _, rfl, _, rfl, _, rfl, _, rfl, rfl⟩
    have hworked : Worked (c.shared.2.of ()) := by
      rw [hlog]
      simp [Worked, sampleUnchangedHistory, MachineOp.Works]
    have hfile := hatomic.2 _ _ c hr rfl hworked
    rw [hret] at hfile
    exact ⟨c, answer, hr, hlog, hret, hends (hfile.notModified answer rfl) (hfile.no_part nofun)⟩

end Sample

end EvidenceCartographer.Sources.Met
