import EvidenceCartographer.Infrastructure.ObjectServer

/-! The steps of the object store and of its callers, as a system of parties.

    `Serve` is what the server and other writers do, `Exec` what one transport operation of one call
    does, and `Rely` what a call keeps while the rest of the system moves: the objects that exist, its
    own attempts up to their fate, and its own HEAD requests up to what the server has seen since. -/

namespace EvidenceCartographer.Infrastructure

open Python Application Concurrency

variable {ι : Type}

/-- `MISSING_OBJECT_CODES`. -/
def missingObjectCodes : List String := ["NoSuchKey", "NoSuchObject", "NoSuchResource"]

/-- The answer of `stat_object` for a key that holds nothing. -/
def isMissing : Exc → Bool
  | .s3Error e => e.code.any (· ∈ missingObjectCodes)
  | _ => false

/-- What a server does beyond taking PUTs into effect: which status it may answer to a PUT with a
    given fate while its key is occupied or not, how a HEAD request may fail, and what other writers
    may create. -/
structure Server where
  answers : Nat → Fate → Bool → Prop
  statFails : Exc → Prop
  foreign : ObjectKey → Bytes → List (String × String) → Prop

namespace Server

/-- 200 and 204 are answered only to the PUT that created the object. -/
def SuccessOnlyToCreator (srv : Server) : Prop :=
  ∀ status fate occupied, status = 200 ∨ status = 204 → srv.answers status fate occupied →
    fate = .landed

/-- A PUT answered 409, 412 or another 4xx never takes effect. -/
def RejectionIsFinal (srv : Server) : Prop :=
  ∀ status fate occupied, 400 ≤ status → status < 500 → srv.answers status fate occupied →
    fate = .refused

/-- 412 is answered only when an object occupies the key. -/
def PreconditionMeansOccupied (srv : Server) : Prop :=
  ∀ fate occupied, srv.answers 412 fate occupied → occupied = true

/-- Every HEAD request is answered, with the object or as missing. -/
def AnswersStats (srv : Server) : Prop := ∀ e, ¬ srv.statFails e

/-- Nobody but the modelled calls writes. -/
def NoOtherWriter (srv : Server) : Prop := ∀ key data metadata, ¬ srv.foreign key data metadata

/-- A server that keeps every promise. -/
def strict : Server where
  answers status fate occupied := (status = 200 ∧ fate = .landed) ∨ (status = 409 ∧ fate = .refused) ∨
    (status = 412 ∧ fate = .refused ∧ occupied = true) ∨ status = 503
  statFails _ := False
  foreign _ _ _ := False

theorem strict_successOnlyToCreator : strict.SuccessOnlyToCreator := by
  rintro status fate occupied hs (⟨-, h⟩ | ⟨rfl, -⟩ | ⟨rfl, -⟩ | rfl)
  · exact h
  all_goals omega

theorem strict_rejectionIsFinal : strict.RejectionIsFinal := by
  rintro status fate occupied h₁ h₂ (⟨rfl, -⟩ | ⟨-, h⟩ | ⟨-, h, -⟩ | rfl)
  · omega
  · exact h
  · exact h
  · omega

theorem strict_preconditionMeansOccupied : strict.PreconditionMeansOccupied := by
  rintro fate occupied (⟨h, -⟩ | ⟨h, -⟩ | ⟨-, -, h⟩ | h)
  · omega
  · omega
  · exact h
  · omega

theorem strict_answersStats : strict.AnswersStats := fun _ => id

theorem strict_noOtherWriter : strict.NoOtherWriter := fun _ _ _ => id

end Server

variable [DecidableEq ι] (srv : Server)

/-- What happens without any call acting. -/
inductive Serve : World ι → World ι → Prop where
  | land {w} (i n p) (hp : w.puts.entry i n = some p)
      (hwhole : p.request.contentLength ≤ p.request.body.length)
      (habsent : w.objects p.request.key = none) :
      p.fate = .pending → Serve w (w.land i n p hp hwhole habsent)
  | refuse {w} (i n p) (hp : w.puts.entry i n = some p) (hpending : p.fate = .pending) :
      Serve w (w.refuse i n p hp hpending)
  | observe {w} (i n t) (ht : w.stats.entry i n = some t) :
      t.observed = none → Serve w (w.observe i n t ht)
  | foreign {w} (key data metadata) (habsent : w.objects key = none) :
      srv.foreign key data metadata → Serve w (w.foreign key data metadata habsent)

/-- One transport operation of call `i`. An answer concerns the last request the call has sent. -/
inductive Exec (i : ι) : (o : HttpOp) → World ι → o.Reply → World ι → Prop where
  | notSent (w request e) : Exec i (.putSend request) w (.error e)
      (w.sendPut i ⟨request, .unsent, some (.error e)⟩ (by simp))
  | sent (w request) : Exec i (.putSend request) w (.ok ())
      (w.sendPut i ⟨request, .pending, none⟩ (by simp))
  | answered (w n p response position) (hp : w.puts.entry i n = some p) :
      w.puts.size i = n + 1 →
      srv.answers response.status p.fate (w.objects p.request.key).isSome →
      Exec i .putAwait w ⟨.ok response, position⟩ (w.answerPut i n p hp (.ok response))
  | broken (w n p e position) (hp : w.puts.entry i n = some p) : w.puts.size i = n + 1 →
      Exec i .putAwait w ⟨.error e, position⟩ (w.answerPut i n p hp (.error e))
  | statSent (w key) : Exec i (.statSend key) w () (w.sendStat i key)
  | found (w n key o) : w.stats.size i = n + 1 → w.stats.entry i n = some ⟨key, some (some o)⟩ →
      Exec i .statAwait w (.ok o.stat) (w.answerStat i (.ok o.stat))
  | missing (w n key e) : w.stats.size i = n + 1 → w.stats.entry i n = some ⟨key, some none⟩ →
      isMissing e = true → Exec i .statAwait w (.error e) (w.answerStat i (.error e))
  | failed (w e) : srv.statFails e → isMissing e = false →
      Exec i .statAwait w (.error e) (w.answerStat i (.error e))

/-- A pending PUT may still land or be refused; any other fate is final. -/
def Fate.Becomes (f f' : Fate) : Prop := f' = f ∨ f = .pending

/-- What call `i` keeps while the others move. -/
structure Rely (i : ι) (w w' : World ι) : Prop where
  objects : ∀ key o, w.objects key = some o → w'.objects key = some o
  putSize : w'.puts.size i = w.puts.size i
  puts : ∀ n p, w.puts.entry i n = some p →
    ∃ f, p.fate.Becomes f ∧ w'.puts.entry i n = some { p with fate := f }
  statSize : w'.stats.size i = w.stats.size i
  stats : ∀ n t, w.stats.entry i n = some t → ∃ v, w'.stats.entry i n = some ⟨t.key, v⟩ ∧
    (v = t.observed ∨ t.observed = none ∧ (v = some none → w.objects t.key = none))
  lastAnswer : w'.lastAnswer i = w.lastAnswer i

namespace Rely

variable {i j : ι} {w w' w'' : World ι}

omit [DecidableEq ι] in
theorem refl (i : ι) (w : World ι) : Rely i w w where
  objects _ _ h := h
  putSize := rfl
  puts _ p h := ⟨p.fate, .inl rfl, h⟩
  statSize := rfl
  stats _ t h := ⟨t.observed, h, .inl rfl⟩
  lastAnswer := rfl

omit [DecidableEq ι] in
theorem trans (h : Rely i w w') (h' : Rely i w' w'') : Rely i w w'' where
  objects key o ho := h'.objects key o (h.objects key o ho)
  putSize := h'.putSize.trans h.putSize
  puts n p hp := by
    obtain ⟨f, hf, hp'⟩ := h.puts n p hp
    obtain ⟨f', hf', hp''⟩ := h'.puts n _ hp'
    refine ⟨f', ?_, hp''⟩
    rcases hf with rfl | hf
    · exact hf'
    · exact .inr hf
  statSize := h'.statSize.trans h.statSize
  stats n t ht := by
    obtain ⟨v, hv, hor⟩ := h.stats n t ht
    obtain ⟨v', hv', hor'⟩ := h'.stats n _ hv
    refine ⟨v', hv', ?_⟩
    -- a key that is free later was free before
    have back : w'.objects t.key = none → w.objects t.key = none := by
      intro hn
      cases ho : w.objects t.key with
      | none => rfl
      | some o => rw [h.objects _ _ ho] at hn; cases hn
    rcases hor with rfl | ⟨hn, hv⟩
    · rcases hor' with rfl | ⟨hn, hv'⟩
      · exact .inl rfl
      · exact .inr ⟨hn, fun h => back (hv' h)⟩
    · refine .inr ⟨hn, fun hsome => ?_⟩
      rcases hor' with rfl | ⟨-, hv'⟩
      · exact hv hsome
      · exact back (hv' hsome)
  lastAnswer := h'.lastAnswer.trans h.lastAnswer

/-- Changing an entry of another call, or the fate of a pending PUT, is within the rely. -/
theorem of_setPut {n : Nat} {p p' : PutAttempt} {hp : w.puts.entry j n = some p}
    {hrequest : p'.request = p.request} {hfate : p'.fate = .landed ↔ p.fate = .landed}
    {last : ι → Option Answer} (hlast : last i = w.lastAnswer i)
    (h : i = j → p' = { p with fate := p'.fate } ∧ p.fate.Becomes p'.fate) :
    Rely i w (w.setPut j n p p' hp hrequest hfate last) where
  objects _ _ h := h
  putSize := Log.size_amend ..
  puts m q hq := by
    by_cases hm : i = j ∧ m = n
    · obtain ⟨rfl, rfl⟩ := hm
      obtain ⟨heq, hf⟩ := h rfl
      rw [hp] at hq; cases hq
      refine ⟨p'.fate, hf, ?_⟩
      rw [World.setPut, Log.entry_amend hp, if_pos ⟨rfl, rfl⟩, ← heq]
    · refine ⟨q.fate, .inl rfl, ?_⟩
      rw [World.setPut, Log.entry_amend hp, if_neg hm]; exact hq
  statSize := rfl
  stats _ t h := ⟨t.observed, h, .inl rfl⟩
  lastAnswer := hlast

theorem of_serve (h : Serve srv w w') : Rely i w w' := by
  cases h with
  | land j n p hp hwhole habsent hpending =>
    refine ⟨fun key o ho => World.put_of_some habsent ho, Log.size_amend .., fun m q hq => ?_, rfl,
      fun _ t h => ⟨t.observed, h, .inl rfl⟩, rfl⟩
    by_cases hm : i = j ∧ m = n
    · obtain ⟨rfl, rfl⟩ := hm
      rw [hp] at hq; cases hq
      exact ⟨.landed, .inr hpending, by rw [World.land, Log.entry_amend hp, if_pos ⟨rfl, rfl⟩]⟩
    · exact ⟨q.fate, .inl rfl, by rw [World.land, Log.entry_amend hp, if_neg hm]; exact hq⟩
  | refuse j n p hp hpending => exact of_setPut rfl fun _ => ⟨rfl, .inr hpending⟩
  | observe j n t ht hnone =>
    refine ⟨fun _ _ h => h, rfl, fun _ p h => ⟨p.fate, .inl rfl, h⟩, Log.size_amend .., ?_, rfl⟩
    intro m t' ht'
    by_cases hm : i = j ∧ m = n
    · obtain ⟨rfl, rfl⟩ := hm
      rw [ht] at ht'; cases ht'
      exact ⟨some (w.objects t.key), by rw [World.observe, Log.entry_amend ht, if_pos ⟨rfl, rfl⟩],
        .inr ⟨hnone, fun h => Option.some.inj h⟩⟩
    · exact ⟨t'.observed, by rw [World.observe, Log.entry_amend ht, if_neg hm]; exact ht', .inl rfl⟩
  | foreign key data metadata habsent =>
    exact ⟨fun key o ho => World.put_of_some habsent ho, rfl, fun _ p h => ⟨p.fate, .inl rfl, h⟩, rfl,
      fun _ t h => ⟨t.observed, h, .inl rfl⟩, rfl⟩

theorem of_sendPut (hij : i ≠ j) {p : PutAttempt} {hfate : p.fate ≠ .landed} :
    Rely i w (w.sendPut j p hfate) where
  objects _ _ h := h
  putSize := by rw [World.sendPut, Log.size_push, if_neg hij]
  puts n q hq := ⟨q.fate, .inl rfl, Log.entry_push_of_entry hq⟩
  statSize := rfl
  stats _ t h := ⟨t.observed, h, .inl rfl⟩
  lastAnswer := rfl

theorem of_answerStat (hij : i ≠ j) {answer : Except Exc ObjectStat} :
    Rely i w (w.answerStat j answer) where
  objects _ _ h := h
  putSize := rfl
  puts _ p h := ⟨p.fate, .inl rfl, h⟩
  statSize := rfl
  stats _ t h := ⟨t.observed, h, .inl rfl⟩
  lastAnswer := Function.update_of_ne hij _ _

theorem of_exec (hij : i ≠ j) {o : HttpOp} {r : o.Reply} (h : Exec srv j o w r w') :
    Rely i w w' := by
  cases h with
  | notSent _ request e => exact of_sendPut hij
  | sent _ request => exact of_sendPut hij
  | answered _ n p response position hp =>
    exact of_setPut (Function.update_of_ne hij _ _) fun h => absurd h hij
  | broken _ n p e position hp =>
    exact of_setPut (Function.update_of_ne hij _ _) fun h => absurd h hij
  | statSent _ key =>
    refine ⟨fun _ _ h => h, rfl, fun _ p h => ⟨p.fate, .inl rfl, h⟩, ?_, fun n t ht => ?_, rfl⟩
    · rw [World.sendStat, Log.size_push, if_neg hij]
    · exact ⟨t.observed, Log.entry_push_of_entry ht, .inl rfl⟩
  | found | missing | failed => exact of_answerStat hij

end Rely

/-- The object store with its callers. -/
def storeSystem : System ι httpSignature (World ι) where
  env := Serve srv
  exec := Exec srv
  rely := Rely
  rely_refl := Rely.refl
  rely_trans _ _ _ _ := Rely.trans
  env_rely _ _ _ := Rely.of_serve srv
  exec_rely _ _ _ _ _ _ hij := Rely.of_exec srv hij

end EvidenceCartographer.Infrastructure
