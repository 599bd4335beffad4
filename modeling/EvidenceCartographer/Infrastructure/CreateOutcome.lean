import EvidenceCartographer.Infrastructure.ConditionalObjectClient

/-! What one conditional create knows when it ends.

    `Created` says, for every way `put_object_if_absent` can end, what its attempts were, how they
    were answered and what the key holds; `safe_putObjectIfAbsent` proves it against any server and
    any other callers. The loop invariant is `Tried`: no attempt so far was answered with success, and
    while no attempt was ambiguous each was answered 409. -/

namespace EvidenceCartographer.Infrastructure

open Python Application Concurrency MinioConditionalObjectClient

variable {ι : Type}

/-- `o` is what `_reconcile_object` takes for this payload: stored size, declared size and tag. -/
def ObjectRecord.Matches (o : ObjectRecord ι) (length : Nat) (sha256 : String) : Prop :=
  decodeMetadata o.stat = .ok ⟨length, some sha256, some (length : Int)⟩

/-- The key holds an object for this payload. -/
def World.Holds (w : World ι) (key : ObjectKey) (length : Nat) (sha256 : String) : Prop :=
  ∃ o, w.objects key = some o ∧ o.Matches length sha256

/-- The key holds an object, and no PUT of call `i` created it. -/
def World.HoldsForeign (w : World ι) (i : ι) (key : ObjectKey) : Prop :=
  ∃ o, w.objects key = some o ∧ ∀ n, o.creator ≠ some (i, n)

theorem World.HoldsForeign.objects {i : ι} {w w' : World ι} {key : ObjectKey}
    (h : w.HoldsForeign i key)
    (hobjects : ∀ key o, w.objects key = some o → w'.objects key = some o) : w'.HoldsForeign i key := by
  obtain ⟨o, ho, hnot⟩ := h
  exact ⟨o, hobjects key o ho, hnot⟩

/-- A call that has sent nothing owns nothing. -/
theorem World.HoldsForeign.of_fresh {i : ι} {w : World ι} {key : ObjectKey} {o : ObjectRecord ι}
    (hw : w.puts.size i = 0) (ho : w.objects key = some o) : w.HoldsForeign i key := by
  refine ⟨o, ho, fun n hc => ?_⟩
  obtain ⟨p, hp, -, -⟩ := w.created key o i n ho hc
  have hlt := Log.lt_size hp
  rw [hw] at hlt
  exact absurd hlt (Nat.not_lt_zero n)

/-- An answer 200 or 204. -/
def Succeeded : Except Exc HttpResponse → Prop
  | .error _ => False
  | .ok response => response.status = 200 ∨ response.status = 204

/-- An exception, or an ambiguous status. -/
def Ambiguous : Except Exc HttpResponse → Prop
  | .error _ => True
  | .ok response => response.status ∈ ambiguousStatusCodes

def HasStatus (status : Nat) : Except Exc HttpResponse → Prop
  | .error _ => False
  | .ok response => response.status = status

/-- A status that is neither a success nor ambiguous. -/
theorem Ambiguous.not_status {answer : Except Exc HttpResponse} {status : Nat} (h : Ambiguous answer)
    (hstatus : status ∉ ambiguousStatusCodes) : ¬ HasStatus status answer := by
  cases answer with
  | error e => exact id
  | ok response =>
    intro hs
    have hmem : response.status ∈ ambiguousStatusCodes := h
    rw [show response.status = status from hs] at hmem
    exact hstatus hmem

theorem Succeeded.not_status {answer : Except Exc HttpResponse} {status : Nat} (h : Succeeded answer)
    (hstatus : status ≠ 200 ∧ status ≠ 204) : ¬ HasStatus status answer := by
  cases answer with
  | error e => exact h.elim
  | ok response =>
    intro hs
    have hs : response.status = status := hs
    rcases h with h | h
    · exact hstatus.1 (hs.symm.trans h)
    · exact hstatus.2 (hs.symm.trans h)

theorem HasStatus.unique {answer : Except Exc HttpResponse} {status status' : Nat}
    (h : HasStatus status answer) (h' : HasStatus status' answer) : status = status' := by
  cases answer with
  | error e => exact h.elim
  | ok response => exact Eq.trans (Eq.symm h) h'

theorem Ambiguous.not_succeeded {answer : Except Exc HttpResponse} (h : Ambiguous answer) :
    ¬ Succeeded answer := by
  intro hs
  cases answer with
  | error e => exact hs
  | ok response =>
    rcases hs with hs | hs
    · exact h.not_status (by decide) hs
    · exact h.not_status (by decide) hs

theorem getHeader_sha256 (sha256 size : String) :
    getHeader [("x-amz-meta-ec-sha256", sha256), ("x-amz-meta-ec-size", size)]
      "x-amz-meta-ec-sha256" = some sha256 := by
  have h₁ : String.ofList ("x-amz-meta-ec-size".toList.map Char.toLower) ≠
    "x-amz-meta-ec-sha256" := by decide
  have h₂ : String.ofList ("x-amz-meta-ec-sha256".toList.map Char.toLower) =
    "x-amz-meta-ec-sha256" := by decide
  simp only [getHeader, List.reverse_cons, List.reverse_nil, List.nil_append, List.cons_append,
    List.find?_cons, decide_eq_false h₁, decide_eq_true h₂, Option.map_some]

theorem getHeader_size (sha256 size : String) :
    getHeader [("x-amz-meta-ec-sha256", sha256), ("x-amz-meta-ec-size", size)]
      "x-amz-meta-ec-size" = some size := by
  have h : String.ofList ("x-amz-meta-ec-size".toList.map Char.toLower) =
    "x-amz-meta-ec-size" := by decide
  simp only [getHeader, List.reverse_cons, List.reverse_nil, List.nil_append, List.cons_append,
    List.find?_cons, decide_eq_true h, Option.map_some]

/-- PUT number `n` of call `i` has got this answer. -/
def World.Answered (w : World ι) (i : ι) (n : Nat) (answer : Except Exc HttpResponse) : Prop :=
  ∃ p, w.puts.entry i n = some p ∧ p.answer = some answer

/-- The answers to PUT number `n` that a further attempt may follow: 409, what leaves the outcome open,
    and 412 after that. -/
def World.Retryable (w : World ι) (i : ι) (first n : Nat) (answer : Except Exc HttpResponse) : Prop :=
  HasStatus 409 answer ∨ Ambiguous answer ∨ HasStatus 412 answer ∧
    ∃ m earlier, first ≤ m ∧ m < n ∧ w.Answered i m earlier ∧ Ambiguous earlier

/-- No HEAD request of the call since number `first` has seen an object. -/
def World.Blind (w : World ι) (i : ι) (first : Nat) : Prop :=
  ∀ m t, first ≤ m → w.stats.entry i m = some t → t.observed = some none

/-- A HEAD request of the call since number `first` has seen this object. -/
def World.Sighted (w : World ι) (i : ι) (first : Nat) (key : ObjectKey) (o : ObjectRecord ι) : Prop :=
  ∃ m, first ≤ m ∧ w.stats.entry i m = some ⟨key, some (some o)⟩

/-- An object a client's PUT created reads back as the length and the tag of that PUT. -/
theorem putRequest_matches {bucket object sha256 contentType : String} {data : Stream} {length : Nat}
    {c : ι × Nat} (hwhole : length ≤ data.rest.length) (hsmall : length < 10 ^ maxStrDigits) :
    ((putRequest bucket object data length sha256 contentType).record c).Matches length sha256 := by
  simp only [ObjectRecord.Matches, PutRequest.record, putRequest, decodeMetadata, ObjectRecord.stat,
    getHeader_size, getHeader_sha256, int_toString hsmall, Option.getD_some, List.length_take,
    Nat.min_eq_left hwhole]

/-- Call `i` neither started nor heard of a PUT between the two states. -/
structure Quiet (i : ι) (w w' : World ι) : Prop where
  objects : ∀ key o, w.objects key = some o → w'.objects key = some o
  size : w'.puts.size i = w.puts.size i
  puts : ∀ n p, w.puts.entry i n = some p →
    ∃ f, p.fate.Becomes f ∧ w'.puts.entry i n = some { p with fate := f }

/-- The second state comes after the first: its objects, its PUTs of call `i` and their answers are
    still there. -/
structure Since (i : ι) (w w' : World ι) : Prop where
  objects : ∀ key o, w.objects key = some o → w'.objects key = some o
  size : w.puts.size i ≤ w'.puts.size i
  puts : ∀ n p, w.puts.entry i n = some p → ∃ p', w'.puts.entry i n = some p' ∧
    p'.request = p.request ∧ ∀ answer, p.answer = some answer → p'.answer = some answer

variable {i : ι} {w w' w'' : World ι}

theorem Rely.quiet (h : Rely i w w') : Quiet i w w' := ⟨h.objects, h.putSize, h.puts⟩

theorem Quiet.refl : Quiet i w w := (Rely.refl i w).quiet

theorem Quiet.trans (h : Quiet i w w') (h' : Quiet i w' w'') : Quiet i w w'' where
  objects key o ho := h'.objects key o (h.objects key o ho)
  size := h'.size.trans h.size
  puts n p hp := by
    obtain ⟨f, hf, hp'⟩ := h.puts n p hp
    obtain ⟨f', hf', hp''⟩ := h'.puts n _ hp'
    refine ⟨f', ?_, hp''⟩
    rcases hf with rfl | hf
    · exact hf'
    · exact .inr hf

theorem Quiet.since (h : Quiet i w w') : Since i w w' where
  objects := h.objects
  size := h.size.ge
  puts n p hp := by
    obtain ⟨f, -, hp'⟩ := h.puts n p hp
    exact ⟨_, hp', rfl, fun _ => id⟩

/-- Every entry after a quiet stretch was there before it, with the same request and answer. -/
theorem Quiet.back (h : Quiet i w w') {n : Nat} {p' : PutAttempt}
    (hp : w'.puts.entry i n = some p') :
    ∃ p, w.puts.entry i n = some p ∧ p'.request = p.request ∧ p'.answer = p.answer ∧
      p.fate.Becomes p'.fate := by
  obtain ⟨p, hq⟩ := Log.entry_of_lt (h.size ▸ Log.lt_size hp)
  obtain ⟨f, hf, hp'⟩ := h.puts n p hq
  rw [hp'] at hp; cases hp
  exact ⟨p, hq, rfl, rfl, hf⟩

theorem Since.trans (h : Since i w w') (h' : Since i w' w'') : Since i w w'' where
  objects key o ho := h'.objects key o (h.objects key o ho)
  size := h.size.trans h'.size
  puts n p hp := by
    obtain ⟨p', hp', hr, ha⟩ := h.puts n p hp
    obtain ⟨p'', hp'', hr', ha'⟩ := h'.puts n p' hp'
    exact ⟨p'', hp'', hr'.trans hr, fun answer hans => ha' answer (ha answer hans)⟩

theorem World.Answered.quiet {n : Nat} {answer : Except Exc HttpResponse} (hq : Quiet i w w')
    (h : w.Answered i n answer) : w'.Answered i n answer := by
  obtain ⟨p, hp, hans⟩ := h
  obtain ⟨f, -, hp'⟩ := hq.puts n p hp
  exact ⟨_, hp', hans⟩

theorem World.Answered.back {n : Nat} {answer : Except Exc HttpResponse} (hq : Quiet i w w')
    (h : w'.Answered i n answer) : w.Answered i n answer := by
  obtain ⟨p', hp', hans⟩ := h
  obtain ⟨p, hp, -, ha, -⟩ := hq.back hp'
  exact ⟨p, hp, ha ▸ hans⟩

theorem World.Retryable.mono {first n : Nat} {answer : Except Exc HttpResponse}
    (hw : ∀ m earlier, w.Answered i m earlier → w'.Answered i m earlier)
    (h : w.Retryable i first n answer) : w'.Retryable i first n answer := by
  rcases h with h409 | hamb | ⟨h412, m, earlier, hm, hlt, hans, hamb⟩
  · exact .inl h409
  · exact .inr (.inl hamb)
  · exact .inr (.inr ⟨h412, m, earlier, hm, hlt, hw m earlier hans, hamb⟩)

/-- What the server has looked at stays looked at. -/
theorem World.Blind.rely {first : Nat} (hr : Rely i w w') (h : w.Blind i first) : w'.Blind i first := by
  intro m t' hm ht'
  obtain ⟨t, ht⟩ := Log.entry_of_lt (hr.statSize ▸ Log.lt_size ht')
  obtain ⟨v, hv, hseen⟩ := hr.stats m t ht
  have hnone := h m t hm ht
  rw [ht'] at hv; cases hv
  rcases hseen with heq | ⟨hunseen, -⟩
  · exact heq.trans hnone
  · rw [hnone] at hunseen; cases hunseen

theorem World.Sighted.rely {first : Nat} {key : ObjectKey} {o : ObjectRecord ι} (hr : Rely i w w')
    (h : w.Sighted i first key o) : w'.Sighted i first key o := by
  obtain ⟨m, hm, ht⟩ := h
  obtain ⟨v, hv, hseen⟩ := hr.stats m _ ht
  rcases hseen with rfl | ⟨hunseen, -⟩
  · exact ⟨m, hm, hv⟩
  · cases hunseen

theorem World.Holds.since {key : ObjectKey} {length : Nat} {sha256 : String} (h : Since i w w')
    (hh : w.Holds key length sha256) : w'.Holds key length sha256 := by
  obtain ⟨o, ho, hm⟩ := hh
  exact ⟨o, h.objects key o ho, hm⟩

/-- What a HEAD request found out, sent at `w` and answered at `w'`. -/
structure Looked (srv : Server) (i : ι) (key : ObjectKey) (w : World ι) (r : Except Exc ObjectStat)
    (w' : World ι) : Prop where
  quiet : Quiet i w w'
  last : w'.lastAnswer i = some (.stat r)
  found : ∀ stat, r = .ok stat → ∃ o, w'.objects key = some o ∧ stat = o.stat ∧
    w'.Sighted i (w.stats.size i) key o
  missing : ∀ e, r = .error e → isMissing e = true → w.objects key = none
  failed : ∀ e, r = .error e → isMissing e = false → srv.statFails e
  blind : ∀ e first, r = .error e → isMissing e = true → w.Blind i first → w'.Blind i first
  statSize : w.stats.size i ≤ w'.stats.size i

/-- One more PUT of call `i`, with the answer it got. -/
structure Attempted (i : ι) (request : PutRequest) (answer : Except Exc HttpResponse)
    (w w' : World ι) : Prop where
  objects : ∀ key o, w.objects key = some o → w'.objects key = some o
  size : w'.puts.size i = w.puts.size i + 1
  old : ∀ n p, w.puts.entry i n = some p →
    ∃ p', w'.puts.entry i n = some p' ∧ p'.request = p.request ∧ p'.answer = p.answer
  new : ∃ p, w'.puts.entry i (w.puts.size i) = some p ∧ p.request = request ∧
    p.answer = some answer
  last : ∀ response, answer = .ok response → w'.lastAnswer i = some (.put answer)
  blind : ∀ first, w.Blind i first → w'.Blind i first
  statSize : w'.stats.size i = w.stats.size i

theorem Attempted.since {request : PutRequest} {answer : Except Exc HttpResponse}
    (h : Attempted i request answer w w') : Since i w w' where
  objects := h.objects
  size := by rw [h.size]; omega
  puts n p hp := by
    obtain ⟨p', hp', hr, ha⟩ := h.old n p hp
    exact ⟨p', hp', hr, fun answer hans => ha.trans hans⟩

/-- Every entry after one more PUT is that PUT or was there before it. -/
theorem Attempted.back {request : PutRequest} {answer : Except Exc HttpResponse}
    (h : Attempted i request answer w w') {n : Nat} {p' : PutAttempt}
    (hp : w'.puts.entry i n = some p') :
    (p'.request = request ∧ p'.answer = some answer) ∨
      ∃ p, w.puts.entry i n = some p ∧ p'.request = p.request ∧ p'.answer = p.answer := by
  have hlt := Log.lt_size hp
  rw [h.size] at hlt
  rcases Nat.lt_or_eq_of_le (Nat.le_of_lt_succ hlt) with hn | rfl
  · obtain ⟨p, hq⟩ := Log.entry_of_lt hn
    obtain ⟨q, hq', hr, ha⟩ := h.old n p hq
    rw [hp] at hq'; cases hq'
    exact .inr ⟨p, hq, hr, ha⟩
  · obtain ⟨q, hq, hr, ha⟩ := h.new
    rw [hp] at hq; cases hq
    exact .inl ⟨hr, ha⟩

theorem Attempted.answered {request : PutRequest} {answer : Except Exc HttpResponse}
    (h : Attempted i request answer w w') {n : Nat} {answer' : Except Exc HttpResponse} :
    w'.Answered i n answer' ↔
      w.Answered i n answer' ∨ n = w.puts.size i ∧ answer' = answer := by
  constructor
  · rintro ⟨p', hp', hans⟩
    have hlt := Log.lt_size hp'
    rw [h.size] at hlt
    rcases Nat.lt_or_eq_of_le (Nat.le_of_lt_succ hlt) with hn | rfl
    · obtain ⟨p, hp⟩ := Log.entry_of_lt hn
      obtain ⟨q, hq, -, ha⟩ := h.old n p hp
      rw [hp'] at hq; cases hq
      exact .inl ⟨p, hp, ha ▸ hans⟩
    · obtain ⟨q, hq, -, ha⟩ := h.new
      rw [hp'] at hq; cases hq
      rw [hans] at ha; cases ha
      exact .inr ⟨rfl, rfl⟩
  · rintro (⟨p, hp, hans⟩ | ⟨rfl, rfl⟩)
    · obtain ⟨p', hp', -, ha⟩ := h.old n p hp
      exact ⟨p', hp', ha.trans hans⟩
    · obtain ⟨p, hp, -, hans⟩ := h.new
      exact ⟨p, hp, hans⟩

/-- A create that started at `w₀` has not succeeded so far: each of its PUTs sent this request and
    was answered otherwise. -/
structure Failed (i : ι) (w₀ : World ι) (request : PutRequest) (w : World ι) : Prop where
  since : Since i w₀ w
  attempts : ∀ n p, w₀.puts.size i ≤ n → w.puts.entry i n = some p →
    p.request = request ∧ ∃ answer, p.answer = some answer ∧ ¬ Succeeded answer

/-- What is known of the attempts so far, with the flag `had_ambiguous_attempt`. -/
structure Tried (i : ι) (w₀ : World ι) (request : PutRequest) (hadAmbiguousAttempt : Bool)
    (w : World ι) : Prop extends Failed i w₀ request w where
  clean : hadAmbiguousAttempt = false → ∀ n p answer, w₀.puts.size i ≤ n →
    w.puts.entry i n = some p → p.answer = some answer → HasStatus 409 answer ∨ HasStatus 412 answer
  ambiguous : hadAmbiguousAttempt = true → ∃ n p answer, w₀.puts.size i ≤ n ∧
    w.puts.entry i n = some p ∧ p.answer = some answer ∧ Ambiguous answer

/-- How far the loop has come: every PUT so far was one that a further attempt may follow, and there
    was not one too many. -/
structure Retried (i : ι) (w₀ w : World ι) : Prop where
  bounded : w.puts.size i ≤ w₀.puts.size i + maxConditionalPutAttempts
  answers : ∀ n answer, w₀.puts.size i ≤ n → w.Answered i n answer →
    w.Retryable i (w₀.puts.size i) n answer

/-- The last PUT of the call was not answered 409. -/
def World.LastOpen (w : World ι) (i : ι) : Prop :=
  ∀ n answer, w.puts.size i = n + 1 → w.Answered i n answer → ¬ HasStatus 409 answer

/-- The invariant of the loop after this many attempts. -/
structure Looping (i : ι) (w₀ : World ι) (request : PutRequest) (hadAmbiguousAttempt : Bool)
    (made : Nat) (w : World ι) : Prop
    extends Tried i w₀ request hadAmbiguousAttempt w, Retried i w₀ w where
  count : w.puts.size i = w₀.puts.size i + made
  blind : w.Blind i (w₀.stats.size i)
  stats : w₀.stats.size i ≤ w.stats.size i

/-- The ways a create can end, and what is known in each of them at that moment. -/
inductive Ending (ceiling : Nat) (i : ι) (w₀ : World ι) (length : Nat) (request : PutRequest)
    (sha256 : String) (w : World ι) : Except Exc Unit → Prop where
  | tooLarge (uri) : ceiling < length → w.puts.size i = w₀.puts.size i →
      Ending ceiling i w₀ length request sha256 w
        (.error (.singlePutSizeLimitError uri length ceiling))
  | created (n p answer) : w₀.puts.size i ≤ n → w.puts.entry i n = some p → p.request = request →
      p.answer = some answer → Succeeded answer → w.lastAnswer i = some (.put answer) →
      n < w₀.puts.size i + maxConditionalPutAttempts →
      (∀ m answer, w₀.puts.size i ≤ m → w.Answered i m answer →
        m = n ∨ m < n ∧ w.Retryable i (w₀.puts.size i) m answer) →
      Ending ceiling i w₀ length request sha256 w (.ok ())
  | found (o) : w.objects request.key = some o → o.Matches length sha256 →
      w.lastAnswer i = some (.stat (.ok o.stat)) →
      (∃ n p answer, w₀.puts.size i ≤ n ∧ w.puts.entry i n = some p ∧ p.answer = some answer ∧
        Ambiguous answer) → Retried i w₀ w → w.LastOpen i →
      w.Sighted i (w₀.stats.size i) request.key o →
      Ending ceiling i w₀ length request sha256 w (.ok ())
  | occupied (diagnostic n p answer) : w₀.puts.size i ≤ n → w.puts.entry i n = some p →
      p.answer = some answer → HasStatus 412 answer → w.lastAnswer i = some (.put answer) →
      (∀ n p answer, w₀.puts.size i ≤ n → w.puts.entry i n = some p → p.answer = some answer →
        HasStatus 409 answer ∨ HasStatus 412 answer) →
      Ending ceiling i w₀ length request sha256 w (.error (.conditionalObjectExistsError diagnostic))
  | conflict (diagnostic o) : w.objects request.key = some o → ¬ o.Matches length sha256 →
      w.lastAnswer i = some (.stat (.ok o.stat)) →
      Ending ceiling i w₀ length request sha256 w (.error (.conditionalObjectExistsError diagnostic))
  | rejected (diagnostic attempts n response) : ¬ Succeeded (.ok response) →
      w.lastAnswer i = some (.put (.ok response)) → w₀.puts.size i ≤ n → w.Answered i n (.ok response) →
      ¬ Ambiguous (.ok response) → ¬ HasStatus 412 (.ok response) →
      (HasStatus 409 (.ok response) → n + 1 = w₀.puts.size i + maxConditionalPutAttempts) →
      Ending ceiling i w₀ length request sha256 w
        (.error (.conditionalPutError diagnostic attempts none))
  | unseen (diagnostic attempts cause e) : w.lastAnswer i = some (.stat (.error e)) →
      (isMissing e = true → w.puts.size i = w₀.puts.size i + maxConditionalPutAttempts ∧
        w.Blind i (w₀.stats.size i)) →
      Ending ceiling i w₀ length request sha256 w
        (.error (.conditionalPutError diagnostic attempts cause))
  | undecoded (diagnostic attempts cause o) : w.objects request.key = some o →
      ¬ o.Matches length sha256 → w.lastAnswer i = some (.stat (.ok o.stat)) →
      Ending ceiling i w₀ length request sha256 w
        (.error (.conditionalPutError diagnostic attempts cause))

/-- What is known of a create that started at `w₀` and ended in `r` at `w`. -/
structure Ended (ceiling : Nat) (i : ι) (w₀ : World ι) (length : Nat) (request : PutRequest)
    (sha256 : String) (r : Except Exc Unit) (w : World ι) : Prop where
  since : Since i w₀ w
  failed : ∀ e, r = .error e → Failed i w₀ request w
  blamed : ∀ e, r = .error e → ceiling < length ∨ ∃ n answer, w₀.puts.size i ≤ n ∧
    w.Answered i n answer ∧ ¬ Succeeded answer
  ending : Ending ceiling i w₀ length request sha256 w r

theorem Failed.quiet {w₀ : World ι} {request : PutRequest} (h : Failed i w₀ request w)
    (hq : Quiet i w w') : Failed i w₀ request w' where
  since := h.since.trans hq.since
  attempts n p hn hp := by
    obtain ⟨q, hq', hr, ha, -⟩ := hq.back hp
    rw [hr, ha]; exact h.attempts n q hn hq'

theorem Failed.attempted {w₀ : World ι} {request : PutRequest} {answer : Except Exc HttpResponse}
    (h : Failed i w₀ request w) (ha : Attempted i request answer w w') (hfail : ¬ Succeeded answer) :
    Failed i w₀ request w' where
  since := h.since.trans ha.since
  attempts n p hn hp := by
    rcases ha.back hp with ⟨hr, hans⟩ | ⟨q, hq, hr, hans⟩
    · exact ⟨hr, answer, hans, hfail⟩
    · rw [hr, hans]; exact h.attempts n q hn hq

theorem Tried.quiet {w₀ : World ι} {request : PutRequest} {had : Bool}
    (h : Tried i w₀ request had w) (hq : Quiet i w w') : Tried i w₀ request had w' where
  toFailed := h.toFailed.quiet hq
  clean hhad n p answer hn hp hans := by
    obtain ⟨q, hq', -, ha, -⟩ := hq.back hp
    exact h.clean hhad n q answer hn hq' (ha ▸ hans)
  ambiguous hhad := by
    obtain ⟨n, p, answer, hn, hp, hans, hamb⟩ := h.ambiguous hhad
    obtain ⟨f, -, hp'⟩ := hq.puts n p hp
    exact ⟨n, _, answer, hn, hp', hans, hamb⟩

/-- One more attempt that did not succeed, and the flag it leaves. -/
theorem Tried.attempted {w₀ : World ι} {request : PutRequest} {answer : Except Exc HttpResponse}
    {had had' : Bool} (h : Tried i w₀ request had w) (ha : Attempted i request answer w w')
    (hfail : ¬ Succeeded answer)
    (hclean : had' = false → had = false ∧ (HasStatus 409 answer ∨ HasStatus 412 answer))
    (hamb : had' = true → had = true ∨ Ambiguous answer) : Tried i w₀ request had' w' where
  toFailed := h.toFailed.attempted ha hfail
  clean hhad n p answer' hn hp hans := by
    obtain ⟨hhad, hstatus⟩ := hclean hhad
    rcases ha.back hp with ⟨-, hans'⟩ | ⟨q, hq, -, hans'⟩
    · rw [hans'] at hans; cases hans
      exact hstatus
    · exact h.clean hhad n q answer' hn hq (hans' ▸ hans)
  ambiguous hhad := by
    rcases hamb hhad with hhad | hamb
    · obtain ⟨n, p, answer', hn, hp, hans, hamb⟩ := h.ambiguous hhad
      obtain ⟨p', hp', -, hans'⟩ := ha.old n p hp
      exact ⟨n, p', answer', hn, hp', hans'.trans hans, hamb⟩
    · obtain ⟨p, hp, -, hans⟩ := ha.new
      exact ⟨_, p, answer, h.since.size, hp, hans, hamb⟩

/-- Before the first attempt. -/
theorem Tried.start (i : ι) (w₀ : World ι) (request : PutRequest) :
    Tried i w₀ request false w₀ where
  since := Quiet.refl.since
  attempts n p hn hp := absurd (Log.lt_size hp) (Nat.not_lt.mpr hn)
  clean _ n p _ hn hp := absurd (Log.lt_size hp) (Nat.not_lt.mpr hn)
  ambiguous h := by cases h

theorem Retried.start (i : ι) (w₀ : World ι) : Retried i w₀ w₀ where
  bounded := Nat.le_add_right ..
  answers n answer hn := by
    rintro ⟨p, hp, -⟩
    exact absurd (Log.lt_size hp) (Nat.not_lt.mpr hn)

theorem Looping.start (i : ι) (w₀ : World ι) (request : PutRequest) :
    Looping i w₀ request false 0 w₀ where
  toTried := .start i w₀ request
  toRetried := .start i w₀
  count := rfl
  blind _ _ hm ht := absurd (Log.lt_size ht) (Nat.not_lt.mpr hm)
  stats := Nat.le_refl _

/-- A create that sends nothing. -/
theorem Ended.tooLarge {ceiling length : Nat} {w : World ι} {request : PutRequest} {sha256 : String}
    (uri : String) (hlt : ceiling < length) : Ended ceiling i w length request sha256
      (.error (.singlePutSizeLimitError uri length ceiling)) w where
  since := Quiet.refl.since
  failed _ _ := (Tried.start i w request).toFailed
  blamed _ _ := .inl hlt
  ending := .tooLarge uri hlt rfl

theorem Retried.quiet {w₀ : World ι} (h : Retried i w₀ w) (hq : Quiet i w w') : Retried i w₀ w' where
  bounded := hq.size.trans_le h.bounded
  answers n answer hn hans :=
    (h.answers n answer hn (hans.back hq)).mono fun _ _ hearlier => hearlier.quiet hq

/-- One more attempt that a further one may follow. -/
theorem Retried.attempted {w₀ : World ι} {request : PutRequest} {answer : Except Exc HttpResponse}
    (h : Retried i w₀ w) (ha : Attempted i request answer w w')
    (hbounded : w.puts.size i < w₀.puts.size i + maxConditionalPutAttempts)
    (hnew : w.Retryable i (w₀.puts.size i) (w.puts.size i) answer) : Retried i w₀ w' where
  bounded := ha.size.trans_le hbounded
  answers n answer' hn hans := by
    have hkeep : ∀ m earlier, w.Answered i m earlier → w'.Answered i m earlier :=
      fun m earlier hearlier => ha.answered.mpr (.inl hearlier)
    rcases ha.answered.mp hans with hans | ⟨rfl, rfl⟩
    · exact (h.answers n answer' hn hans).mono hkeep
    · exact hnew.mono hkeep

theorem World.LastOpen.quiet (h : w.LastOpen i) (hq : Quiet i w w') : w'.LastOpen i :=
  fun n answer hn hans => h n answer (hq.size.symm.trans hn) (hans.back hq)

/-- How a create ended stays true while the others go on. -/
theorem Ended.rely {ceiling length : Nat} {w₀ : World ι} {request : PutRequest} {sha256 : String}
    {r : Except Exc Unit} (hr : Rely i w w') (h : Ended ceiling i w₀ length request sha256 r w) :
    Ended ceiling i w₀ length request sha256 r w' where
  since := h.since.trans hr.quiet.since
  failed e he := (h.failed e he).quiet hr.quiet
  blamed e he := by
    rcases h.blamed e he with hlarge | ⟨n, answer, hn, hans, hfail⟩
    · exact .inl hlarge
    · exact .inr ⟨n, answer, hn, hans.quiet hr.quiet, hfail⟩
  ending := by
    have hlast := hr.lastAnswer
    -- a PUT keeps its request and its answer
    have keep : ∀ n p, w.puts.entry i n = some p → ∃ p', w'.puts.entry i n = some p' ∧
        p'.request = p.request ∧ p'.answer = p.answer := by
      intro n p hp
      obtain ⟨f, -, hp'⟩ := hr.puts n p hp
      exact ⟨_, hp', rfl, rfl⟩
    cases h.ending with
    | tooLarge uri hlt hsize => exact .tooLarge uri hlt (hr.putSize.trans hsize)
    | created n p answer hn hp hreq hans hsucc hl hbounded hearlier =>
      obtain ⟨p', hp', hreq', hans'⟩ := keep n p hp
      refine .created n p' answer hn hp' (hreq'.trans hreq) (hans'.trans hans) hsucc (hlast.trans hl)
        hbounded fun m answer' hm hans'' => ?_
      rcases hearlier m answer' hm (hans''.back hr.quiet) with heq | ⟨hlt, hretry⟩
      · exact .inl heq
      · exact .inr ⟨hlt, hretry.mono fun _ _ h => h.quiet hr.quiet⟩
    | found o ho hm hl hamb hretried hopen hsighted =>
      obtain ⟨n, p, answer, hn, hp, hans, hamb⟩ := hamb
      obtain ⟨p', hp', -, hans'⟩ := keep n p hp
      exact .found o (hr.objects _ _ ho) hm (hlast.trans hl)
        ⟨n, p', answer, hn, hp', hans'.trans hans, hamb⟩ (hretried.quiet hr.quiet)
        (hopen.quiet hr.quiet) (hsighted.rely hr)
    | occupied diagnostic n p answer hn hp hans h412 hl hclean =>
      obtain ⟨p', hp', -, hans'⟩ := keep n p hp
      refine .occupied diagnostic n p' answer hn hp' (hans'.trans hans) h412 (hlast.trans hl) ?_
      intro m q answer' hm hq hans''
      obtain ⟨q', hq', -, ha, -⟩ := hr.quiet.back hq
      exact hclean m q' answer' hm hq' (ha ▸ hans'')
    | conflict diagnostic o ho hm hl =>
      exact .conflict diagnostic o (hr.objects _ _ ho) hm (hlast.trans hl)
    | rejected diagnostic attempts n response hfail hl hn hans hamb h412 h409 =>
      exact .rejected diagnostic attempts n response hfail (hlast.trans hl) hn (hans.quiet hr.quiet)
        hamb h412 h409
    | unseen diagnostic attempts cause e hl hblind =>
      refine .unseen diagnostic attempts cause e (hlast.trans hl) fun hm => ?_
      exact ⟨hr.putSize.trans (hblind hm).1, (hblind hm).2.rely hr⟩
    | undecoded diagnostic attempts cause o ho hm hl =>
      exact .undecoded diagnostic attempts cause o (hr.objects _ _ ho) hm (hlast.trans hl)

/-- What `_reconcile_object` found out. -/
inductive Reconciled (i : ι) (key : ObjectKey) (length : Nat) (sha256 : String) (w₀ w : World ι) :
    Except Exc ReconciliationState → Prop where
  | found (o) : w.objects key = some o → o.Matches length sha256 →
      w.lastAnswer i = some (.stat (.ok o.stat)) → w.Sighted i (w₀.stats.size i) key o →
      Reconciled i key length sha256 w₀ w (.ok .found)
  | conflict (o) : w.objects key = some o → ¬ o.Matches length sha256 →
      w.lastAnswer i = some (.stat (.ok o.stat)) → Reconciled i key length sha256 w₀ w (.ok .conflict)
  | absent (e) : w.lastAnswer i = some (.stat (.error e)) →
      (∀ first, w₀.Blind i first → w.Blind i first) ∧ w₀.stats.size i ≤ w.stats.size i →
      Reconciled i key length sha256 w₀ w (.ok .absent)
  | failed (e) : w.lastAnswer i = some (.stat (.error e)) → isMissing e = false →
      Reconciled i key length sha256 w₀ w (.error e)
  | undecoded (o e) : w.objects key = some o → ¬ o.Matches length sha256 →
      w.lastAnswer i = some (.stat (.ok o.stat)) → Reconciled i key length sha256 w₀ w (.error e)

/-- The invariant of a call is stable while it starts no PUT. -/
def KeptQuietly (i : ι) (J : World ι → Prop) : Prop :=
  ∀ w w' : World ι, Since i w w' → w'.puts.size i = w.puts.size i → J w → J w'

theorem KeptQuietly.quiet {J : World ι → Prop} (hJ : KeptQuietly i J) (h : Quiet i w w')
    (hw : J w) : J w' :=
  hJ w w' h.since h.size hw

section Client

variable [DecidableEq ι] {srv : Server} {J : World ι → Prop}

theorem safe_minioStatObject (hJ : KeptQuietly i J) (key : ObjectKey) (hw : J w) :
    (storeSystem srv).Safe i J (minioStatObject key) (fun r w' => J w' ∧ Looked srv i key w r w')
      w := by
  intro w₁ (hr₁ : Rely i w w₁) r₁ w₂ hx₁
  cases hx₁
  have hq₁ : Quiet i w (w₁.sendStat i key) :=
    hr₁.quiet.trans ⟨fun _ _ h => h, rfl, fun _ p h => ⟨p.fate, .inl rfl, h⟩⟩
  refine ⟨hJ.quiet hq₁ hw, ?_⟩
  intro w₃ (hr₃ : Rely i _ w₃) r w₄ hx₃
  have hentry : (w₁.sendStat i key).stats.entry i (w₁.stats.size i) = some ⟨key, none⟩ :=
    Log.entry_push_self ..
  have hsize : (w₁.sendStat i key).stats.size i = w₁.stats.size i + 1 := Log.size_push_self ..
  obtain ⟨v, hv, hseen⟩ := hr₃.stats _ _ hentry
  -- the answered request is the one just sent
  have same : ∀ {n t}, w₃.stats.size i = n + 1 → w₃.stats.entry i n = some t → t = ⟨key, v⟩ := by
    intro n t hn ht
    have : n = w₁.stats.size i := by
      have := hr₃.statSize; omega
    subst this
    rw [hv] at ht; cases ht; rfl
  have finish : ∀ answer : Except Exc ObjectStat, Quiet i w (w₃.answerStat i answer) ∧
      (w₃.answerStat i answer).lastAnswer i = some (.stat answer) := fun answer =>
    ⟨(hq₁.trans hr₃.quiet).trans ⟨fun _ _ h => h, rfl, fun _ p h => ⟨p.fate, .inl rfl, h⟩⟩,
      Function.update_self ..⟩
  have hstats : w.stats.size i ≤ w₃.stats.size i := by
    have h₁ := hr₁.statSize
    have h₃ := hr₃.statSize
    omega
  -- after an answer `missing` the new request is as blind as the old ones
  have hblind : ∀ first, v = some none → w.Blind i first → w₃.Blind i first := by
    rintro first rfl hblind m t hm ht
    by_cases hnew : m = w₁.stats.size i
    · subst hnew
      rw [hv] at ht; cases ht
      rfl
    · have hlt := Log.lt_size ht
      rw [hr₃.statSize, hsize] at hlt
      obtain ⟨t₁, ht₁⟩ := Log.entry_of_lt (l := w₁.stats) (i := i) (n := m) (by omega)
      have hold : (w₁.sendStat i key).stats.entry i m = some t₁ := Log.entry_push_of_entry ht₁
      obtain ⟨v', hv', hseen'⟩ := hr₃.stats m t₁ hold
      rw [ht] at hv'; cases hv'
      have hnone := hblind.rely hr₁ m t₁ hm ht₁
      rcases hseen' with heq | ⟨hunseen, -⟩
      · exact heq.trans hnone
      · rw [hnone] at hunseen; cases hunseen
  cases hx₃ with
  | found _ n key' o hn ht =>
    cases same hn ht
    obtain ⟨hq, hlast⟩ := finish (.ok o.stat)
    refine ⟨hJ.quiet hq hw, hJ.quiet hq hw, hq, hlast, ?_, by simp, by simp, by simp, hstats⟩
    rintro stat ⟨⟩
    exact ⟨o, w₃.observed i _ _ o hv rfl, rfl, w₁.stats.size i, hr₁.statSize.ge, hv⟩
  | missing _ n key' e hn ht hm =>
    cases same hn ht
    obtain ⟨hq, hlast⟩ := finish (.error e)
    refine ⟨hJ.quiet hq hw, hJ.quiet hq hw, hq, hlast, by simp, ?_, ?_,
      fun _ first _ _ h => hblind first rfl h, hstats⟩
    · rintro e' ⟨⟩ -
      rcases hseen with hnone | ⟨-, hfree⟩
      · cases hnone
      · have hfree : w₁.objects key = none := hfree rfl
        cases ho : w.objects key with
        | none => rfl
        | some o => rw [hr₁.objects _ _ ho] at hfree; cases hfree
    · rintro e' ⟨⟩ hm'
      rw [hm] at hm'; cases hm'
  | failed _ e hf hm =>
    obtain ⟨hq, hlast⟩ := finish (.error e)
    refine ⟨hJ.quiet hq hw, hJ.quiet hq hw, hq, hlast, by simp, ?_, ?_, ?_, hstats⟩
    · rintro e' ⟨⟩ hm'
      rw [hm] at hm'; cases hm'
    · rintro e' ⟨⟩ -
      exact hf
    · rintro e' first ⟨⟩ hm'
      rw [hm] at hm'; cases hm'

/-- Sending keeps the invariant too, for one request. -/
def KeptSending (i : ι) (J : World ι → Prop) (w₀ : World ι) (request : PutRequest) : Prop :=
  ∀ w p (hfate : p.fate ≠ .landed), Since i w₀ w → J w → p.request = request →
    J (w.sendPut i p hfate)

theorem safe_sendOnce {w₀ : World ι} {bucket object sha256 contentType : String} {data : Stream}
    {length : Nat} (hJ : KeptQuietly i J)
    (hsend : KeptSending i J w₀ (putRequest bucket object data length sha256 contentType))
    (hw : J w) (hw₀ : Since i w₀ w) :
    (storeSystem srv).Safe i J
      (sendOnce bucket object data length sha256 contentType : Program _ Exc _)
      (fun r w' => J w' ∧ ∃ answer position, r = .ok (answer, data.seek position) ∧
        Attempted i (putRequest bucket object data length sha256 contentType) answer w w') w := by
  intro w₁ (hr₁ : Rely i w w₁) r₁ w₂ hx₁
  have hw₁ : J w₁ := hJ.quiet hr₁.quiet hw
  have hw₀₁ : Since i w₀ w₁ := hw₀.trans hr₁.quiet.since
  -- the log after the send, whatever the fate of the new PUT
  have sent : ∀ (p : PutAttempt) (h : p.fate ≠ .landed),
      p.request = putRequest bucket object data length sha256 contentType →
      J (w₁.sendPut i p h) ∧
      (w₁.sendPut i p h).puts.entry i (w.puts.size i) = some p ∧
      (w₁.sendPut i p h).puts.size i = w.puts.size i + 1 ∧
      ∀ n q, w.puts.entry i n = some q → ∃ f, (w₁.sendPut i p h).puts.entry i n =
        some { q with fate := f } := by
    intro p h hp
    refine ⟨hsend w₁ p h hw₀₁ hw₁ hp, ?_, ?_, fun n q hq => ?_⟩
    · rw [← hr₁.putSize]
      exact Log.entry_push_self ..
    · rw [← hr₁.putSize]
      exact Log.size_push_self ..
    · obtain ⟨f, -, hq'⟩ := hr₁.puts n q hq
      exact ⟨f, Log.entry_push_of_entry hq'⟩
  cases hx₁ with
  | notSent _ _ e =>
    obtain ⟨hJ₂, hnew, hsize, hold⟩ := sent ⟨putRequest bucket object data length sha256 contentType,
      .unsent, some (.error e)⟩ (by simp) rfl
    refine ⟨hJ₂, hJ₂, .error e, data.position, rfl, hr₁.objects, hsize, fun n q hq => ?_,
      ⟨_, hnew, rfl, rfl⟩, by simp, fun first h => show w₁.Blind i first from h.rely hr₁,
      hr₁.statSize⟩
    obtain ⟨f, hq'⟩ := hold n q hq
    exact ⟨_, hq', rfl, rfl⟩
  | sent _ _ =>
    obtain ⟨hJ₂, hnew, hsize, hold⟩ := sent ⟨putRequest bucket object data length sha256 contentType,
      .pending, none⟩ (by simp) rfl
    refine ⟨hJ₂, ?_⟩
    intro w₃ (hr₃ : Rely i _ w₃) r w₄ hx₃
    obtain ⟨f, -, hnew₃⟩ := hr₃.puts _ _ hnew
    have hsize₃ := hr₃.putSize.trans hsize
    -- the answered PUT is the one just sent
    have finish : ∀ n p (hp : w₃.puts.entry i n = some p) (answer : Except Exc HttpResponse),
        w₃.puts.size i = n + 1 → J (w₃.answerPut i n p hp answer) ∧
        Attempted i (putRequest bucket object data length sha256 contentType) answer w
          (w₃.answerPut i n p hp answer) := by
      intro n p hp answer hn
      obtain rfl : n = w.puts.size i := by omega
      rw [hnew₃] at hp; cases hp
      have hentry : ∀ m, (w₃.answerPut i _ _ hnew₃ answer).puts.entry i m =
          if m = w.puts.size i then some ⟨putRequest bucket object data length sha256 contentType, f,
            some answer⟩ else w₃.puts.entry i m := by
        intro m
        rw [World.answerPut, World.setPut, Log.entry_amend hnew₃]; simp
      have hsince : Since i w₃ (w₃.answerPut i _ _ hnew₃ answer) := by
        refine ⟨fun _ _ h => h, (Log.size_amend ..).ge, fun m q hq => ?_⟩
        rw [hentry]
        by_cases hm : m = w.puts.size i
        · subst hm
          rw [hnew₃] at hq; cases hq
          exact ⟨_, if_pos rfl, rfl, by simp⟩
        · exact ⟨q, by rw [if_neg hm]; exact hq, rfl, fun _ => id⟩
      refine ⟨hJ _ _ hsince (Log.size_amend ..) (hJ.quiet hr₃.quiet hJ₂), ?_⟩
      refine ⟨fun key o ho => hr₃.objects key o (hr₁.objects key o ho), ?_, fun m q hq => ?_, ?_, ?_,
        fun first h => ?_, hr₃.statSize.trans hr₁.statSize⟩
      · exact (Log.size_amend ..).trans hsize₃
      · obtain ⟨f', hq'⟩ := hold m q hq
        obtain ⟨f'', -, hq''⟩ := hr₃.puts _ _ hq'
        refine ⟨{ q with fate := f'' }, ?_, rfl, rfl⟩
        rw [hentry, if_neg (Nat.ne_of_lt (Log.lt_size hq)), hq'']
      · exact ⟨_, by rw [hentry, if_pos rfl], rfl, rfl⟩
      · intro response _
        exact Function.update_self ..
      · have hsent : (w₁.sendPut i ⟨putRequest bucket object data length sha256 contentType, .pending,
            none⟩ (by simp)).Blind i first := show w₁.Blind i first from h.rely hr₁
        have hanswered : w₃.Blind i first := hsent.rely hr₃
        exact hanswered
    cases hx₃ with
    | answered _ n p response position hp hn =>
      obtain ⟨hJ₄, hattempt⟩ := finish n p hp (.ok response) hn
      exact ⟨hJ₄, hJ₄, .ok response, position, rfl, hattempt⟩
    | broken _ n p e position hp hn =>
      obtain ⟨hJ₄, hattempt⟩ := finish n p hp (.error e) hn
      exact ⟨hJ₄, hJ₄, .error e, position, rfl, hattempt⟩

/-- A decoder error is not the answer for a missing object. -/
theorem isMissing_of_decodeMetadata {stat : ObjectStat} {e : Exc}
    (h : decodeMetadata stat = .error e) : isMissing e = false := by
  unfold decodeMetadata at h
  split at h
  · cases h
  · split at h
    · cases h
    · cases h; rfl

theorem safe_statObject (hJ : KeptQuietly i J) (bucket object : String) (hw : J w) :
    (storeSystem srv).Safe i J (statObject bucket object)
      (fun r w' => J w' ∧ ∃ answer, Looked srv i (bucket, object) w answer w' ∧
        r = answer.bind decodeMetadata) w := by
  refine .bind ((safe_minioStatObject hJ (bucket, object) hw).mono ?_)
  rintro (e | stat) w' ⟨hw', hl⟩
  · exact ⟨hw', .error e, hl, rfl⟩
  · simp only [Except.bind]
    cases hd : decodeMetadata stat with
    | error e => exact ⟨hw', .ok stat, hl, hd.symm⟩
    | ok metadata => exact ⟨hw', .ok stat, hl, hd.symm⟩

theorem safe_reconcileObject (hJ : KeptQuietly i J) (bucket object : String) (length : Nat)
    (sha256 : String) (hw : J w) :
    (storeSystem srv).Safe i J (reconcileObject bucket object length sha256)
      (fun r w' => J w' ∧ Quiet i w w' ∧ Reconciled i (bucket, object) length sha256 w w' r) w := by
  refine .bind (.attempt ((safe_statObject hJ bucket object hw).mono ?_))
  rintro r w' ⟨hw', answer, hl, rfl⟩
  rcases answer with e | stat
  · by_cases hm : isMissing e = true
    · simp only [Except.bind, hm, if_true]
      exact ⟨hw', hl.quiet, .absent e hl.last
        ⟨fun first h => hl.blind e first rfl hm h, hl.statSize⟩⟩
    · simp only [Except.bind, hm]
      exact ⟨hw', hl.quiet, .failed e hl.last (Bool.eq_false_of_not_eq_true hm)⟩
  · obtain ⟨o, ho, rfl, hsighted⟩ := hl.found stat rfl
    cases hd : decodeMetadata o.stat with
    | error e =>
      have hm := isMissing_of_decodeMetadata hd
      have hno : ¬ o.Matches length sha256 := by
        intro h; rw [ObjectRecord.Matches, hd] at h; cases h
      simp only [Except.bind, hd, hm]
      exact ⟨hw', hl.quiet, .undecoded o e ho hno hl.last⟩
    | ok metadata =>
      simp only [Except.bind, hd]
      split
      · rename_i h
        obtain ⟨hsize, hdeclared, hsha⟩ := h
        refine ⟨hw', hl.quiet, .found o ho ?_ hl.last hsighted⟩
        rw [ObjectRecord.Matches, hd, ← hsha, ← hdeclared, ← hsize]
      · rename_i h
        refine ⟨hw', hl.quiet, .conflict o ho (fun hm => h ?_) hl.last⟩
        rw [ObjectRecord.Matches, hd] at hm
        cases hm
        exact ⟨rfl, rfl, rfl⟩

variable {ceiling length : Nat} {bucket object sha256 contentType : String} {w₀ : World ι}

/-- After an ambiguous attempt: what the key holds decides, and a free key leads to the retry. -/
theorem safe_settle {request : PutRequest} (hkey : request.key = (bucket, object))
    (hJ : KeptQuietly i J) (diagnostic : ConditionalPutDiagnostic) (attempt : Nat)
    {retry : Program httpSignature Exc Unit} (hw : J w) (hL : Looping i w₀ request true (attempt + 1) w)
    (hopen : w.LastOpen i)
    (hretry : ∀ w', J w' → Looping i w₀ request true (attempt + 1) w' →
      attempt + 1 < maxConditionalPutAttempts →
      (storeSystem srv).Safe i J retry
        (fun r w => J w ∧ Ended ceiling i w₀ length request sha256 r w) w') :
    (storeSystem srv).Safe i J (settle bucket object length sha256 diagnostic attempt retry)
      (fun r w => J w ∧ Ended ceiling i w₀ length request sha256 r w) w := by
  refine .bind (.attempt ((safe_reconcileObject hJ bucket object length sha256 hw).mono ?_))
  rintro r w' ⟨hw', hq, hrec⟩
  have hT' := hL.toTried.quiet hq
  have hblamed : ∃ n answer, w₀.puts.size i ≤ n ∧ w'.Answered i n answer ∧ ¬ Succeeded answer := by
    obtain ⟨n, p, answer, hn, hp, hans, hamb⟩ := hT'.ambiguous rfl
    exact ⟨n, answer, hn, ⟨p, hp, hans⟩, hamb.not_succeeded⟩
  rw [← hkey] at hrec
  cases hrec with
  | found o ho hm hl hsighted =>
    obtain ⟨m, hm', ht⟩ := hsighted
    exact ⟨hw', hT'.since, by simp, by simp, .found o ho hm hl (hT'.ambiguous rfl)
      (hL.toRetried.quiet hq) (hopen.quiet hq) ⟨m, hL.stats.trans hm', ht⟩⟩
  | conflict o ho hm hl =>
    exact ⟨hw', hT'.since, fun _ _ => hT'.toFailed, fun _ _ => .inr hblamed,
      .conflict diagnostic o ho hm hl⟩
  | absent e hl hblind =>
    have hL' : Looping i w₀ request true (attempt + 1) w' := ⟨hT', hL.toRetried.quiet hq,
      hq.size.trans hL.count, hblind.1 _ hL.blind, hL.stats.trans hblind.2⟩
    dsimp only
    split
    · rename_i hlt
      exact hretry w' hw' hL' hlt
    · rename_i hlast
      have hall : attempt + 1 = maxConditionalPutAttempts := by
        have hbounded := hL'.bounded
        have hcount := hL'.count
        omega
      exact ⟨hw', hT'.since, fun _ _ => hT'.toFailed, fun _ _ => .inr hblamed,
        .unseen diagnostic _ none e hl fun _ => ⟨hall ▸ hL'.count, hL'.blind⟩⟩
  | failed e hl hm =>
    refine ⟨hw', hT'.since, fun _ _ => hT'.toFailed, fun _ _ => .inr hblamed,
      .unseen diagnostic _ (some e) e hl fun hmissing => ?_⟩
    rw [hm] at hmissing; cases hmissing
  | undecoded o e ho hm hl =>
    exact ⟨hw', hT'.since, fun _ _ => hT'.toFailed, fun _ _ => .inr hblamed,
      .undecoded diagnostic _ (some e) o ho hm hl⟩

/-- The loop, by induction on the attempts left; `Looping` is its invariant, and every attempt rewinds
    to the same stream. -/
theorem safe_putAttempts {start : Nat} {stream : Stream} (hJ : KeptQuietly i J)
    (hsend : KeptSending i J w₀ (putRequest bucket object stream length sha256 contentType))
    {remaining : Nat} (hpos : 0 < remaining) (hle : remaining ≤ maxConditionalPutAttempts)
    {had : Bool} {data : Stream} (hdata : data.seek start = stream) (hw : J w)
    (hL : Looping i w₀ (putRequest bucket object stream length sha256 contentType) had
      (maxConditionalPutAttempts - remaining) w) :
    (storeSystem srv).Safe i J
      (putAttempts bucket object length sha256 contentType start remaining had data)
      (fun r w => J w ∧ Ended ceiling i w₀ length
        (putRequest bucket object stream length sha256 contentType) sha256 r w) w := by
  induction remaining generalizing had data w with
  | zero => exact absurd hpos (Nat.lt_irrefl 0)
  | succ remaining ih =>
    have hT := hL.toTried
    unfold putAttempts
    refine .bind ((safe_sendOnce hJ (by rw [hdata]; exact hsend) hw hT.since).mono ?_)
    rw [hdata]
    rintro r w' ⟨hw', answer, position, rfl, ha⟩
    have hcount : w.puts.size i < w₀.puts.size i + maxConditionalPutAttempts := by
      have hsize := hL.count
      omega
    -- another attempt is left exactly when `attempt + 1 < MAX_CONDITIONAL_PUT_ATTEMPTS`
    have hretry : ∀ (had' : Bool) (w'' : World ι), J w'' →
        Looping i w₀ (putRequest bucket object stream length sha256 contentType) had'
          (maxConditionalPutAttempts - (remaining + 1) + 1) w'' →
        maxConditionalPutAttempts - (remaining + 1) + 1 < maxConditionalPutAttempts →
        (storeSystem srv).Safe i J
          (putAttempts bucket object length sha256 contentType start remaining had'
            (stream.seek position))
          (fun r w => J w ∧ Ended ceiling i w₀ length
            (putRequest bucket object stream length sha256 contentType) sha256 r w) w'' := by
      intro had' w'' hw'' hL'' hlt
      have hattempt : maxConditionalPutAttempts - (remaining + 1) + 1 =
        maxConditionalPutAttempts - remaining := by omega
      exact ih (by omega) (by omega) (by rw [← hdata]; rfl) hw'' (hattempt ▸ hL'')
    -- the invariant after an attempt that a further one may follow
    have hlooping : ∀ had',
        Tried i w₀ (putRequest bucket object stream length sha256 contentType) had' w' →
        w.Retryable i (w₀.puts.size i) (w.puts.size i) answer →
        Looping i w₀ (putRequest bucket object stream length sha256 contentType) had'
          (maxConditionalPutAttempts - (remaining + 1) + 1) w' := by
      intro had' hT' hnew
      refine ⟨hT', hL.toRetried.attempted ha hcount hnew, ?_, ha.blind _ hL.blind,
        hL.stats.trans ha.statSize.ge⟩
      rw [ha.size, hL.count, Nat.add_assoc]
    have hlast : w'.Answered i (w.puts.size i) answer := ha.answered.mpr (.inr ⟨rfl, rfl⟩)
    have hopen : ¬ HasStatus 409 answer → w'.LastOpen i := by
      intro hno n answer' hn hans
      obtain rfl : n = w.puts.size i := by
        have hsize := ha.size
        omega
      rcases ha.answered.mp hans with ⟨p, hp, -⟩ | ⟨-, rfl⟩
      · exact absurd (Log.lt_size hp) (Nat.lt_irrefl _)
      · exact hno
    cases answer with
    | error exc =>
      have hT' : Tried i w₀ _ true w' := hT.attempted ha (by simp [Succeeded]) (by simp)
        (fun _ => .inr trivial)
      exact safe_settle rfl hJ _ _ hw' (hlooping true hT' (.inr (.inl trivial))) (hopen id)
        (hretry true)
    | ok response =>
      dsimp only
      split
      · rename_i hsucc
        obtain ⟨p, hp, hreq, hans⟩ := ha.new
        refine ⟨hw', hT.since.trans ha.since, by simp, by simp,
          .created _ p _ hT.since.size hp hreq hans hsucc (ha.last response rfl) hcount ?_⟩
        intro m answer' hm hans'
        rcases ha.answered.mp hans' with hold | ⟨rfl, -⟩
        · have hlt : m < w.puts.size i := by
            obtain ⟨q, hq, -⟩ := hold
            exact Log.lt_size hq
          exact .inr ⟨hlt, (hL.answers m answer' hm hold).mono fun _ _ h =>
            ha.answered.mpr (.inl h)⟩
        · exact .inl rfl
      rename_i hfail
      have hblamed : ∃ n answer, w₀.puts.size i ≤ n ∧ w'.Answered i n answer ∧ ¬ Succeeded answer :=
        ⟨_, _, hT.since.size, hlast, hfail⟩
      split
      · rename_i h412
        split
        · rename_i hhad
          have hT' : Tried i w₀ _ true w' := hT.attempted ha hfail (by simp) (fun _ => .inl hhad)
          obtain ⟨m, p, earlier, hm, hp, hans, hamb⟩ := hT.ambiguous hhad
          have hL' := hlooping true hT' (.inr (.inr ⟨h412, m, earlier, hm, Log.lt_size hp,
            ⟨p, hp, hans⟩, hamb⟩))
          have hno : ¬ HasStatus 409 (.ok response) := by
            intro h409
            rw [show response.status = 409 from h409] at h412
            cases h412
          exact safe_settle rfl hJ _ _ hw' hL' (hopen hno) (by rw [hhad]; exact hretry true)
        · rename_i hhad
          have hT' : Tried i w₀ _ false w' := hT.attempted ha hfail
            (fun _ => ⟨by simpa using hhad, .inr h412⟩) (by simp)
          obtain ⟨p, hp, -, hans⟩ := ha.new
          exact ⟨hw', hT'.since, fun _ _ => hT'.toFailed, fun _ _ => .inr hblamed,
            .occupied _ _ p _ hT.since.size hp hans h412 (ha.last response rfl) (hT'.clean rfl)⟩
      rename_i h412
      split
      · rename_i hamb
        have hT' : Tried i w₀ _ true w' := hT.attempted ha hfail (by simp) (fun _ => .inr hamb)
        exact safe_settle rfl hJ _ _ hw' (hlooping true hT' (.inr (.inl hamb)))
          (hopen (Ambiguous.not_status hamb (by decide))) (hretry true)
      rename_i hamb
      have hrejected : (HasStatus 409 (.ok response) →
          w.puts.size i + 1 = w₀.puts.size i + maxConditionalPutAttempts) →
          J w' ∧ Ended ceiling i w₀ length _ sha256 _ w' := fun h409 =>
        ⟨hw', hT.since.trans ha.since, fun _ _ => hT.toFailed.attempted ha hfail,
          fun _ _ => .inr hblamed, .rejected (responseDiagnostic response)
            (maxConditionalPutAttempts - (remaining + 1) + 1) _ response hfail
            (ha.last response rfl) hT.since.size hlast hamb h412 h409⟩
      split
      · rename_i h409
        split
        · rename_i hlt
          -- the only retryable status that is not ambiguous
          have hstatus : HasStatus 409 (.ok response) := by
            simp only [retryableStatusCodes, ambiguousStatusCodes, List.mem_cons,
              List.not_mem_nil, or_false] at hamb h409
            rcases h409 with h | h
            · exact h
            · exact absurd h hamb
          have hT' : Tried i w₀ _ had w' := hT.attempted ha hfail
            (fun h => ⟨h, .inl hstatus⟩) (fun h => .inl h)
          exact hretry had w' hw' (hlooping had hT' (.inl hstatus)) hlt
        · rename_i hlast'
          refine hrejected fun _ => ?_
          have hsize := hL.count
          omega
      · rename_i hlisted
        refine hrejected fun h409 => absurd ?_ hlisted
        rw [show response.status = 409 from h409]
        decide

/-- `put_object_if_absent`, whatever the server answers and whoever else writes. -/
theorem safe_putObjectIfAbsent (ceiling : Nat) (bucket object : String) (data : Stream)
    (length : Nat) (sha256 contentType : String) (hJ : KeptQuietly i J)
    (hsend : KeptSending i J w (putRequest bucket object data length sha256 contentType))
    (hw : J w) :
    (storeSystem srv).Safe i J (putObjectIfAbsent ceiling bucket object data length sha256 contentType)
      (fun r w' => J w' ∧ Ended ceiling i w length
        (putRequest bucket object data length sha256 contentType) sha256 r w') w := by
  have hL := Looping.start i w (putRequest bucket object data length sha256 contentType)
  unfold putObjectIfAbsent
  split
  · rename_i hlt
    exact ⟨hw, .tooLarge _ hlt⟩
  · exact safe_putAttempts hJ hsend (by decide) (Nat.le_refl _) rfl hw hL

end Client

end EvidenceCartographer.Infrastructure
