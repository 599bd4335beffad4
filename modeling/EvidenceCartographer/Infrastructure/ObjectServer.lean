import EvidenceCartographer.Application.Errors
import EvidenceCartographer.Concurrency.Log
import EvidenceCartographer.Concurrency.System
import EvidenceCartographer.Python.Hashlib
import Mathlib.Data.List.Basic
import Mathlib.Data.Prod.Basic

/-! The object store the clients talk to, with any number of calls in flight.

    A conditional PUT is sent, may take effect at any later moment if its key is free by then, may be
    refused for good, and is answered, or not, independently of that. A HEAD request is answered with
    what the server saw at some moment after it was sent. Objects are never deleted or replaced. What
    a server promises about its answers is a separate predicate on `Server`, so each result names
    the promises it needs. -/

namespace EvidenceCartographer.Infrastructure

open Python Application Concurrency

/-- A bucket and an object name in it. -/
abbrev ObjectKey := String × String

structure PutRequest where
  key : ObjectKey
  body : Bytes
  contentLength : Nat
  contentType : String
  ifNoneMatch : String
  /-- The `x-amz-meta-` headers. -/
  metadata : List (String × String)
  deriving DecidableEq

/-- What the client reads of an answer to a PUT; `error` is what `S3Error.fromxml` makes of it. -/
structure HttpResponse where
  status : Nat
  data : String
  requestId : Option String
  hostId : Option String
  error : Option S3Error
  deriving DecidableEq

/-- What `Minio.stat_object` returns. -/
structure ObjectStat where
  size : Option Nat
  metadata : List (String × String)
  deriving DecidableEq

/-- A PUT answered or broken off, and where the transport left the body stream. -/
structure PutReply where
  result : Except Exc HttpResponse
  position : Nat

inductive HttpOp where
  | putSend (request : PutRequest)
  | putAwait
  | statSend (key : ObjectKey)
  | statAwait

/-- `putSend` raises when nothing was sent. -/
def HttpOp.Reply : HttpOp → Type
  | .putSend _ => Except Exc Unit
  | .putAwait => PutReply
  | .statSend _ => Unit
  | .statAwait => Except Exc ObjectStat

/-- The requests of the HTTP transport, each split into its sending and its answer. -/
abbrev httpSignature : Signature := ⟨HttpOp, HttpOp.Reply⟩

/-- What has become of a PUT at the server. -/
inductive Fate where | unsent | pending | landed | refused
  deriving DecidableEq

structure PutAttempt where
  request : PutRequest
  fate : Fate
  answer : Option (Except Exc HttpResponse)

/-- A stored object, and the PUT that created it: the call and the number of its attempt. Objects
    of other writers have no creator among the calls. -/
structure ObjectRecord (ι : Type) where
  data : Bytes
  metadata : List (String × String)
  creator : Option (ι × Nat)

/-- A HEAD request, and what the server saw when it looked. -/
structure StatAttempt (ι : Type) where
  key : ObjectKey
  observed : Option (Option (ObjectRecord ι))

/-- The answers a call receives. -/
inductive Answer where
  | put (result : Except Exc HttpResponse)
  | stat (result : Except Exc ObjectStat)

variable {ι : Type}

def ObjectRecord.stat (o : ObjectRecord ι) : ObjectStat := ⟨some o.data.length, o.metadata⟩

/-- The object a request creates: exactly the `Content-Length` bytes, and its metadata. -/
def PutRequest.record (r : PutRequest) (creator : ι × Nat) : ObjectRecord ι where
  data := r.body.take r.contentLength
  metadata := r.metadata
  creator := some creator

/-- The store, and for each call its PUT attempts, its HEAD requests and its last answer. An object
    of a call names the PUT that created it, a PUT that landed was sent whole and left exactly its
    object, and what a HEAD request saw stays there. -/
structure World (ι : Type) where
  objects : ObjectKey → Option (ObjectRecord ι)
  puts : Log ι PutAttempt
  stats : Log ι (StatAttempt ι)
  lastAnswer : ι → Option Answer
  created : ∀ key (o : ObjectRecord ι) i n, objects key = some o → o.creator = some (i, n) →
    ∃ p, puts.entry i n = some p ∧ p.fate = .landed ∧ p.request.key = key
  stored : ∀ i n (p : PutAttempt), puts.entry i n = some p → p.fate = .landed →
    p.request.contentLength ≤ p.request.body.length ∧
      objects p.request.key = some (p.request.record (i, n))
  observed : ∀ i n (t : StatAttempt ι) o, stats.entry i n = some t → t.observed = some (some o) →
    objects t.key = some o

namespace World

/-- PUT number `n` of call `i` has taken effect. -/
def Landed (w : World ι) (i : ι) (n : Nat) : Prop :=
  ∃ p, w.puts.entry i n = some p ∧ p.fate = .landed

/-- A store with some objects of other writers, before any call. -/
def initial (objects : ObjectKey → Option (Bytes × List (String × String))) : World ι where
  objects key := (objects key).map fun o => ⟨o.1, o.2, none⟩
  puts := .empty
  stats := .empty
  lastAnswer _ := none
  created := by
    intro key o i n h hc
    obtain ⟨_, -, rfl⟩ := Option.map_eq_some_iff.mp h
    cases hc
  stored := by simp
  observed := by simp

/-- The store with one more object, under a key that was free. -/
abbrev put (objects : ObjectKey → Option (ObjectRecord ι)) (key : ObjectKey) (o : ObjectRecord ι) :
    ObjectKey → Option (ObjectRecord ι) := Function.update objects key (some o)

theorem put_of_some {objects : ObjectKey → Option (ObjectRecord ι)} {key key' : ObjectKey}
    {o o' : ObjectRecord ι} (habsent : objects key = none) (h : objects key' = some o') :
    put objects key o key' = some o' := by
  rw [put, Function.update_of_ne (by rintro rfl; rw [habsent] at h; cases h), h]

theorem put_cases {objects : ObjectKey → Option (ObjectRecord ι)} {key key' : ObjectKey}
    {o o' : ObjectRecord ι} (h : put objects key o key' = some o') :
    (key' = key ∧ o' = o) ∨ objects key' = some o' := by
  by_cases hk : key' = key
  · subst hk
    rw [put, Function.update_self] at h
    exact .inl ⟨rfl, (Option.some.inj h).symm⟩
  · rw [put, Function.update_of_ne hk] at h
    exact .inr h

variable [DecidableEq ι]

/-- A PUT takes effect: its bytes have all arrived and its key was free, and now holds its object. -/
def land (w : World ι) (i : ι) (n : Nat) (p : PutAttempt) (hp : w.puts.entry i n = some p)
    (hwhole : p.request.contentLength ≤ p.request.body.length)
    (habsent : w.objects p.request.key = none) : World ι where
  objects := put w.objects p.request.key (p.request.record (i, n))
  puts := w.puts.amend i n { p with fate := .landed }
  stats := w.stats
  lastAnswer := w.lastAnswer
  created := by
    intro key o j m ho hc
    rw [Log.entry_amend hp]
    rcases put_cases ho with ⟨rfl, rfl⟩ | hold
    · cases hc
      exact ⟨_, if_pos ⟨rfl, rfl⟩, rfl, rfl⟩
    · obtain ⟨q, hq, hl, hkey⟩ := w.created key o j m hold hc
      refine ⟨q, ?_, hl, hkey⟩
      rw [if_neg]
      · exact hq
      · rintro ⟨rfl, rfl⟩
        rw [hp] at hq; cases hq
        subst hkey
        rw [habsent] at hold; cases hold
  stored := by
    intro j m q hq hl
    rw [Log.entry_amend hp] at hq
    split at hq
    · rename_i hjm
      obtain ⟨rfl, rfl⟩ := hjm
      cases hq; exact ⟨hwhole, Function.update_self ..⟩
    · obtain ⟨hle, ho⟩ := w.stored j m q hq hl
      exact ⟨hle, put_of_some habsent ho⟩
  observed := fun j m t o ht ho => put_of_some habsent (w.observed j m t o ht ho)

/-- An attempt changes, but not its request, nor whether it has landed. -/
def setPut (w : World ι) (i : ι) (n : Nat) (p p' : PutAttempt) (hp : w.puts.entry i n = some p)
    (hrequest : p'.request = p.request) (hfate : p'.fate = .landed ↔ p.fate = .landed)
    (lastAnswer : ι → Option Answer) : World ι where
  objects := w.objects
  puts := w.puts.amend i n p'
  stats := w.stats
  lastAnswer := lastAnswer
  created := by
    intro key o j m ho hc
    obtain ⟨q, hq, hl, hkey⟩ := w.created key o j m ho hc
    rw [Log.entry_amend hp]
    split
    · rename_i hjm
      obtain ⟨rfl, rfl⟩ := hjm
      rw [hp] at hq; cases hq
      exact ⟨p', rfl, hfate.mpr hl, hrequest ▸ hkey⟩
    · exact ⟨q, hq, hl, hkey⟩
  stored := by
    intro j m q hq hl
    rw [Log.entry_amend hp] at hq
    split at hq
    · rename_i hjm
      obtain ⟨rfl, rfl⟩ := hjm
      cases hq
      rw [hrequest]; exact w.stored j m p hp (hfate.mp hl)
    · exact w.stored j m q hq hl
  observed := w.observed

/-- The server will never let this PUT take effect. -/
def refuse (w : World ι) (i : ι) (n : Nat) (p : PutAttempt) (hp : w.puts.entry i n = some p)
    (hpending : p.fate = .pending) : World ι :=
  w.setPut i n p { p with fate := .refused } hp rfl (by simp [hpending]) w.lastAnswer

/-- The caller gets an answer to a PUT, or sees the exchange break off. -/
def answerPut (w : World ι) (i : ι) (n : Nat) (p : PutAttempt) (hp : w.puts.entry i n = some p)
    (answer : Except Exc HttpResponse) : World ι :=
  w.setPut i n p { p with answer := some answer } hp rfl Iff.rfl
    (Function.update w.lastAnswer i (some (.put answer)))

/-- The caller starts a PUT: it is on its way, or it failed before anything was sent. -/
def sendPut (w : World ι) (i : ι) (p : PutAttempt) (hfate : p.fate ≠ .landed) : World ι where
  objects := w.objects
  puts := w.puts.push i p
  stats := w.stats
  lastAnswer := w.lastAnswer
  created := by
    intro key o j m ho hc
    obtain ⟨q, hq, hl, hkey⟩ := w.created key o j m ho hc
    refine ⟨q, ?_, hl, hkey⟩
    rw [Log.entry_push, if_neg]
    · exact hq
    · rintro ⟨rfl, rfl⟩
      exact absurd (Log.lt_size hq) (Nat.lt_irrefl _)
  stored := by
    intro j m q hq hl
    rw [Log.entry_push] at hq
    split at hq
    · cases hq; exact absurd hl hfate
    · exact w.stored j m q hq hl
  observed := w.observed

/-- The caller sends a HEAD request. -/
def sendStat (w : World ι) (i : ι) (key : ObjectKey) : World ι where
  objects := w.objects
  puts := w.puts
  stats := w.stats.push i ⟨key, none⟩
  lastAnswer := w.lastAnswer
  created := w.created
  stored := w.stored
  observed := by
    intro j m t o ht ho
    rw [Log.entry_push] at ht
    split at ht
    · cases ht; cases ho
    · exact w.observed j m t o ht ho

/-- The server looks at the key of a HEAD request. -/
def observe (w : World ι) (i : ι) (n : Nat) (t : StatAttempt ι) (ht : w.stats.entry i n = some t) :
    World ι where
  objects := w.objects
  puts := w.puts
  stats := w.stats.amend i n { t with observed := some (w.objects t.key) }
  lastAnswer := w.lastAnswer
  created := w.created
  stored := w.stored
  observed := by
    intro j m t' o ht' ho
    rw [Log.entry_amend ht] at ht'
    split at ht'
    · cases ht'; exact Option.some.inj ho
    · exact w.observed j m t' o ht' ho

/-- The caller gets the answer to a HEAD request. -/
def answerStat (w : World ι) (i : ι) (answer : Except Exc ObjectStat) : World ι :=
  { w with lastAnswer := Function.update w.lastAnswer i (some (.stat answer)) }

/-- Another writer creates an object, under a key that was free. -/
def foreign (w : World ι) (key : ObjectKey) (data : Bytes) (metadata : List (String × String))
    (habsent : w.objects key = none) : World ι where
  objects := put w.objects key ⟨data, metadata, none⟩
  puts := w.puts
  stats := w.stats
  lastAnswer := w.lastAnswer
  created := by
    intro key' o j m ho hc
    rcases put_cases ho with ⟨rfl, rfl⟩ | hold
    · cases hc
    · exact w.created key' o j m hold hc
  stored := by
    intro j m q hq hl
    obtain ⟨hle, ho⟩ := w.stored j m q hq hl
    exact ⟨hle, put_of_some habsent ho⟩
  observed := fun j m t o ht ho => put_of_some habsent (w.observed j m t o ht ho)

end World

end EvidenceCartographer.Infrastructure
