import EvidenceCartographer.Concurrency.History
import EvidenceCartographer.Concurrency.Product

/-! What a program did: the calls it made, how each was answered, and how it ended.

    `Trace` says nothing of where the answers come from, so what is proved of every trace holds in every
    environment, however stateful. There is one rule for each way to build a program, and the calls of a
    compound program are those of its parts, in order. The answers decide the trace, and the log of a
    party that has ended is one. -/

namespace EvidenceCartographer.Concurrency

namespace Program

variable {S : Signature} {ε α β : Type}

/-- The program, its calls answered in this way, ends in `r`. -/
def Trace : Program S ε α → List S.Event → Except ε α → Prop
  | .ret a, events, r => events = [] ∧ r = .ok a
  | .raise e, events, r => events = [] ∧ r = .error e
  | .call o k, events, r => ∃ x rest, events = ⟨o, x⟩ :: rest ∧ (k x).Trace rest r

variable {events : List S.Event}

@[simp] theorem trace_ret {a : α} {r : Except ε α} :
    (ret a : Program S ε α).Trace events r ↔ events = [] ∧ r = .ok a := Iff.rfl

@[simp] theorem trace_raise {e : ε} {r : Except ε α} :
    (raise e : Program S ε α).Trace events r ↔ events = [] ∧ r = .error e := Iff.rfl

theorem trace_call {o : S.Op} {k : S.Reply o → Program S ε α} {r : Except ε α} :
    (call o k).Trace events r ↔ ∃ x rest, events = ⟨o, x⟩ :: rest ∧ (k x).Trace rest r := Iff.rfl

/-- One call more, in front. -/
theorem Trace.call {o : S.Op} {k : S.Reply o → Program S ε α} {x : S.Reply o} {r : Except ε α}
    (h : (k x).Trace events r) : (Program.call o k).Trace (⟨o, x⟩ :: events) r :=
  ⟨x, events, rfl, h⟩

@[simp] theorem trace_ofExcept {x r : Except ε α} :
    (ofExcept x : Program S ε α).Trace events r ↔ events = [] ∧ r = x := by
  cases x <;> exact Iff.rfl

/-- A call whose reply says whether it raised. -/
theorem trace_reply {o : S.Op} {f : S.Reply o → Except ε α} {r : Except ε α} :
    (call o fun x => ofExcept (f x)).Trace events r ↔ ∃ x, events = [⟨o, x⟩] ∧ r = f x := by
  rw [trace_call]
  constructor
  · rintro ⟨x, rest, rfl, h⟩
    obtain ⟨rfl, rfl⟩ := trace_ofExcept.mp h
    exact ⟨x, rfl, rfl⟩
  · rintro ⟨x, rfl, rfl⟩
    exact ⟨x, [], rfl, trace_ofExcept.mpr ⟨rfl, rfl⟩⟩

/-- What follows a first part, raised or not. -/
theorem trace_bind {p : Program S ε α} {f : α → Program S ε β} {r : Except ε β} :
    (p.bind f).Trace events r ↔ ∃ before after r₁, events = before ++ after ∧ p.Trace before r₁ ∧
      match r₁ with
      | .ok a => (f a).Trace after r
      | .error e => after = [] ∧ r = .error e := by
  induction p generalizing events with
  | ret a =>
    constructor
    · exact fun h => ⟨[], events, .ok a, rfl, ⟨rfl, rfl⟩, h⟩
    · rintro ⟨before, after, r₁, rfl, ⟨rfl, rfl⟩, h⟩
      exact h
  | raise e =>
    constructor
    · exact fun h => ⟨[], events, .error e, rfl, ⟨rfl, rfl⟩, h⟩
    · rintro ⟨before, after, r₁, rfl, ⟨rfl, rfl⟩, h⟩
      exact h
  | call o k ih =>
    constructor
    · rintro ⟨x, rest, rfl, h⟩
      obtain ⟨before, after, r₁, rfl, hp, hf⟩ := (ih x).mp h
      exact ⟨⟨o, x⟩ :: before, after, r₁, rfl, ⟨x, before, rfl, hp⟩, hf⟩
    · rintro ⟨_, after, r₁, rfl, ⟨x, before, rfl, hp⟩, hf⟩
      exact ⟨x, before ++ after, rfl, (ih x).mpr ⟨before, after, r₁, rfl, hp, hf⟩⟩

/-- What returned has returned in both its parts. -/
theorem trace_bind_ok {p : Program S ε α} {f : α → Program S ε β} {b : β} :
    (p.bind f).Trace events (.ok b) ↔ ∃ before after a, events = before ++ after ∧
      p.Trace before (.ok a) ∧ (f a).Trace after (.ok b) := by
  rw [trace_bind]
  constructor
  · rintro ⟨before, after, e | a, rfl, hp, hf⟩
    · cases hf.2
    · exact ⟨before, after, a, rfl, hp, hf⟩
  · rintro ⟨before, after, a, rfl, hp, hf⟩
    exact ⟨before, after, .ok a, rfl, hp, hf⟩

theorem Trace.bind {p : Program S ε α} {f : α → Program S ε β} {a : α} {events' : List S.Event}
    {r : Except ε β} (h : p.Trace events (.ok a)) (h' : (f a).Trace events' r) :
    (p.bind f).Trace (events ++ events') r :=
  trace_bind.mpr ⟨events, events', .ok a, rfl, h, h'⟩

theorem Trace.cases_ofExcept {x : Except ε α} {f : α → Program S ε β} {r : Except ε β}
    (h : ((ofExcept x).bind f).Trace events r) :
    (∃ a, x = .ok a ∧ (f a).Trace events r) ∨ ∃ e, x = .error e ∧ events = [] ∧ r = .error e := by
  cases x with
  | ok a => exact .inl ⟨a, rfl, h⟩
  | error e => exact .inr ⟨e, rfl, h⟩

theorem Trace.bind_ofExcept {x : Except ε α} {a : α} {f : α → Program S ε β} {r : Except ε β}
    (hx : x = .ok a) (h : (f a).Trace events r) : ((ofExcept x).bind f).Trace events r := by
  subst hx
  exact h

/-- What follows a first part that may raise. -/
theorem trace_handle {p : Program S ε α} {h : ε → Program S ε α} {r : Except ε α} :
    (p.handle h).Trace events r ↔ ∃ before after r₁, events = before ++ after ∧ p.Trace before r₁ ∧
      match r₁ with
      | .ok a => after = [] ∧ r = .ok a
      | .error e => (h e).Trace after r := by
  induction p generalizing events with
  | ret a =>
    constructor
    · exact fun h => ⟨[], events, .ok a, rfl, ⟨rfl, rfl⟩, h⟩
    · rintro ⟨before, after, r₁, rfl, ⟨rfl, rfl⟩, h⟩
      exact h
  | raise e =>
    constructor
    · exact fun h => ⟨[], events, .error e, rfl, ⟨rfl, rfl⟩, h⟩
    · rintro ⟨before, after, r₁, rfl, ⟨rfl, rfl⟩, h⟩
      exact h
  | call o k ih =>
    constructor
    · rintro ⟨x, rest, rfl, h⟩
      obtain ⟨before, after, r₁, rfl, hp, hf⟩ := (ih x).mp h
      exact ⟨⟨o, x⟩ :: before, after, r₁, rfl, ⟨x, before, rfl, hp⟩, hf⟩
    · rintro ⟨_, after, r₁, rfl, ⟨x, before, rfl, hp⟩, hf⟩
      exact ⟨x, before ++ after, rfl, (ih x).mpr ⟨before, after, r₁, rfl, hp, hf⟩⟩

theorem trace_attempt {p : Program S ε α} {r : Except ε (Except ε α)} :
    p.attempt.Trace events r ↔ ∃ r₁, p.Trace events r₁ ∧ r = .ok r₁ := by
  induction p generalizing events with
  | ret a =>
    constructor
    · rintro ⟨rfl, rfl⟩
      exact ⟨_, ⟨rfl, rfl⟩, rfl⟩
    · rintro ⟨_, ⟨rfl, rfl⟩, rfl⟩
      exact ⟨rfl, rfl⟩
  | raise e =>
    constructor
    · rintro ⟨rfl, rfl⟩
      exact ⟨_, ⟨rfl, rfl⟩, rfl⟩
    · rintro ⟨_, ⟨rfl, rfl⟩, rfl⟩
      exact ⟨rfl, rfl⟩
  | call o k ih =>
    constructor
    · rintro ⟨x, rest, rfl, h⟩
      obtain ⟨r₁, hp, rfl⟩ := (ih x).mp h
      exact ⟨r₁, ⟨x, rest, rfl, hp⟩, rfl⟩
    · rintro ⟨r₁, ⟨x, rest, rfl, hp⟩, rfl⟩
      exact ⟨x, rest, rfl, (ih x).mpr ⟨r₁, hp, rfl⟩⟩

/-- The cleanup runs after either ending, and a raise of it replaces that ending. -/
theorem trace_ensuring {p : Program S ε α} {cleanup : Program S ε Unit} {r : Except ε α} :
    (p.ensuring cleanup).Trace events r ↔ ∃ before after r₁ cleaned, events = before ++ after ∧
      p.Trace before r₁ ∧ cleanup.Trace after cleaned ∧
      r = match cleaned with
        | .ok _ => r₁
        | .error e => .error e := by
  rw [ensuring, trace_bind]
  constructor
  · rintro ⟨before, rest, _, rfl, hattempt, hrest⟩
    obtain ⟨r₁, hp, rfl⟩ := trace_attempt.mp hattempt
    obtain ⟨after, last, cleaned, rfl, hcleanup, hlast⟩ := trace_bind.mp hrest
    refine ⟨before, after, r₁, cleaned, ?_, hp, hcleanup, ?_⟩
    · rcases cleaned with e | ⟨⟨⟩⟩
      · rw [hlast.1, List.append_nil]
      · cases r₁ <;> rw [hlast.1, List.append_nil]
    · rcases cleaned with e | ⟨⟨⟩⟩
      · exact hlast.2
      · cases r₁ <;> exact hlast.2
  · rintro ⟨before, after, r₁, cleaned, rfl, hp, hcleanup, rfl⟩
    refine ⟨before, after, .ok r₁, rfl, trace_attempt.mpr ⟨r₁, hp, rfl⟩, ?_⟩
    refine trace_bind.mpr ⟨after, [], cleaned, (List.append_nil _).symm, hcleanup, ?_⟩
    rcases cleaned with e | ⟨⟨⟩⟩
    · exact ⟨rfl, rfl⟩
    · cases r₁ <;> exact ⟨rfl, rfl⟩

/-- The answers decide what a program does: of two traces neither goes on from the other. -/
theorem Trace.unique {p : Program S ε α} {events' rest rest' : List S.Event} {r r' : Except ε α}
    (h : p.Trace events r) (h' : p.Trace events' r') (heq : events ++ rest = events' ++ rest') :
    events = events' ∧ r = r' := by
  induction p generalizing events events' with
  | ret a => exact ⟨h.1.trans h'.1.symm, h.2.trans h'.2.symm⟩
  | raise e => exact ⟨h.1.trans h'.1.symm, h.2.trans h'.2.symm⟩
  | call o k ih =>
    obtain ⟨x, more, rfl, h⟩ := h
    obtain ⟨x', more', rfl, h'⟩ := h'
    obtain ⟨hevent, hmore⟩ := List.cons.inj heq
    cases hevent
    obtain ⟨rfl, hr⟩ := ih x h h' hmore
    exact ⟨rfl, hr⟩

/-- An event of the first of two environments. -/
def inlEvent {T : Signature} (event : S.Event) : (S.sum T).Event := ⟨.inl event.1, event.2⟩

theorem trace_inl {T : Signature} {p : Program S ε α} {events : List (S.sum T).Event}
    {r : Except ε α} :
    p.inl.Trace events r ↔ ∃ own, events = own.map inlEvent ∧ p.Trace own r := by
  induction p generalizing events with
  | ret a =>
    constructor
    · rintro ⟨rfl, rfl⟩
      exact ⟨[], rfl, rfl, rfl⟩
    · rintro ⟨_, rfl, rfl, rfl⟩
      exact ⟨rfl, rfl⟩
  | raise e =>
    constructor
    · rintro ⟨rfl, rfl⟩
      exact ⟨[], rfl, rfl, rfl⟩
    · rintro ⟨_, rfl, rfl, rfl⟩
      exact ⟨rfl, rfl⟩
  | call o k ih =>
    constructor
    · rintro ⟨x, rest, rfl, h⟩
      obtain ⟨own, rfl, hown⟩ := (ih x).mp h
      exact ⟨⟨o, x⟩ :: own, rfl, hown.call⟩
    · rintro ⟨_, rfl, x, own, rfl, h⟩
      exact ⟨x, own.map inlEvent, rfl, (ih x).mpr ⟨own, rfl, h⟩⟩

/-- An event of the second of two environments. -/
def inrEvent {T : Signature} (event : T.Event) : (S.sum T).Event := ⟨.inr event.1, event.2⟩

theorem trace_inr {T : Signature} {p : Program T ε α} {events : List (S.sum T).Event}
    {r : Except ε α} :
    p.inr.Trace events r ↔ ∃ own, events = own.map inrEvent ∧ p.Trace own r := by
  induction p generalizing events with
  | ret a =>
    constructor
    · rintro ⟨rfl, rfl⟩
      exact ⟨[], rfl, rfl, rfl⟩
    · rintro ⟨_, rfl, rfl, rfl⟩
      exact ⟨rfl, rfl⟩
  | raise e =>
    constructor
    · rintro ⟨rfl, rfl⟩
      exact ⟨[], rfl, rfl, rfl⟩
    · rintro ⟨_, rfl, rfl, rfl⟩
      exact ⟨rfl, rfl⟩
  | call o k ih =>
    constructor
    · rintro ⟨x, rest, rfl, h⟩
      obtain ⟨own, rfl, hown⟩ := (ih x).mp h
      exact ⟨⟨o, x⟩ :: own, rfl, hown.call⟩
    · rintro ⟨_, rfl, x, own, rfl, h⟩
      exact ⟨x, own.map inrEvent, rfl, (ih x).mpr ⟨own, rfl, h⟩⟩

/-- All the calls the program may make meet `P`. -/
def Calls (P : S.Op → Prop) : Program S ε α → Prop
  | .ret _ => True
  | .raise _ => True
  | .call o k => P o ∧ ∀ x, (k x).Calls P

section Calls

variable {P : S.Op → Prop} {p : Program S ε α}

theorem calls_ofExcept {x : Except ε α} : (ofExcept x : Program S ε α).Calls P := by
  cases x <;> trivial

theorem calls_reply {o : S.Op} {f : S.Reply o → Except ε α} (ho : P o) :
    (call o fun x => ofExcept (f x)).Calls P := ⟨ho, fun _ => calls_ofExcept⟩

theorem Calls.bind {f : α → Program S ε β} (h : p.Calls P) (hf : ∀ a, (f a).Calls P) :
    (p.bind f).Calls P := by
  induction p with
  | ret a => exact hf a
  | raise e => trivial
  | call o k ih => exact ⟨h.1, fun x => ih x (h.2 x)⟩

theorem Calls.attempt (h : p.Calls P) : p.attempt.Calls P := by
  induction p with
  | ret a => trivial
  | raise e => trivial
  | call o k ih => exact ⟨h.1, fun x => ih x (h.2 x)⟩

theorem Calls.ensuring {cleanup : Program S ε Unit} (h : p.Calls P) (hcleanup : cleanup.Calls P) :
    (p.ensuring cleanup).Calls P := by
  refine h.attempt.bind fun r => hcleanup.bind fun _ => ?_
  cases r <;> trivial

theorem Trace.calls {r : Except ε α} (h : p.Trace events r) (hp : p.Calls P) :
    ∀ event ∈ events, P event.1 := by
  induction p generalizing events with
  | ret a => rw [h.1]; simp
  | raise e => rw [h.1]; simp
  | call o k ih =>
    obtain ⟨x, rest, rfl, hrest⟩ := h
    intro event hevent
    rcases List.mem_cons.mp hevent with rfl | hevent
    · exact hp.1
    · exact ih x hrest (hp.2 x) event hevent

end Calls

/-- A call that `surfaced` gives an exception for is the last one, and the program raises it. -/
def Surfaces (surfaced : S.Event → Option ε) (p : Program S ε α) : Prop :=
  ∀ before event after e r, p.Trace (before ++ event :: after) r → surfaced event = some e →
    after = [] ∧ r = .error e

section Surfaces

variable {surfaced : S.Event → Option ε} {p : Program S ε α}

/-- An event of two histories stands in the second, or in the first before the rest of it. -/
theorem append_cons_eq_append {before after first last : List S.Event} {event : S.Event}
    (h : before ++ event :: after = first ++ last) :
    (∃ mid, last = mid ++ event :: after) ∨
      ∃ mid, first = before ++ event :: mid ∧ after = mid ++ last := by
  rcases List.append_eq_append_iff.mp h with ⟨mid, rfl, hmid⟩ | ⟨mid, -, hmid⟩
  · rcases List.cons_eq_append_iff.mp hmid with ⟨rfl, hlast⟩ | ⟨rest, rfl, hafter⟩
    · exact .inl ⟨[], hlast⟩
    · exact .inr ⟨rest, rfl, hafter⟩
  · exact .inl ⟨mid, hmid⟩

theorem Surfaces.bind {f : α → Program S ε β} (hp : p.Surfaces surfaced)
    (hf : ∀ a, (f a).Surfaces surfaced) : (p.bind f).Surfaces surfaced := by
  intro before event after e r h he
  obtain ⟨first, last, r₁, hevents, hfirst, hlast⟩ := trace_bind.mp h
  rcases append_cons_eq_append hevents with ⟨mid, rfl⟩ | ⟨mid, rfl, rfl⟩
  · -- the call is one of the second part, so the first returned
    rcases r₁ with e₁ | a
    · exact absurd hlast.1 (by simp)
    · exact hf a mid event after e r hlast he
  · obtain ⟨rfl, rfl⟩ := hp before event mid e r₁ hfirst he
    obtain ⟨rfl, rfl⟩ := hlast
    exact ⟨rfl, rfl⟩

/-- A handler that raises lets pass what surfaces. -/
theorem Surfaces.handle {g : ε → ε} (hp : p.Surfaces surfaced)
    (hg : ∀ event e, surfaced event = some e → g e = e) :
    (p.handle fun e => .raise (g e)).Surfaces surfaced := by
  intro before event after e r h he
  obtain ⟨first, last, r₁, hevents, hfirst, hlast⟩ := trace_handle.mp h
  rcases append_cons_eq_append hevents with ⟨mid, rfl⟩ | ⟨mid, rfl, rfl⟩
  · rcases r₁ with e₁ | a
    · exact absurd hlast.1 (by simp)
    · exact absurd hlast.1 (by simp)
  · obtain ⟨rfl, rfl⟩ := hp before event mid e r₁ hfirst he
    obtain ⟨rfl, rfl⟩ := hlast
    exact ⟨rfl, congrArg Except.error (hg event e he)⟩

end Surfaces

end Program

namespace System

variable {ι σ ε α : Type} {S : Signature}

/-- What a run did is a trace. -/
theorem Runs.trace {sys : System ι S σ} {i : ι} {p : Program S ε α} {s s' : σ} {r : Except ε α}
    (h : sys.Runs i p s r s') : ∃ events, p.Trace events r := by
  induction h with
  | ret a s => exact ⟨[], rfl, rfl⟩
  | raise e s => exact ⟨[], rfl, rfl⟩
  | env _ _ ih => exact ih
  | call _ _ ih =>
    obtain ⟨events, htrace⟩ := ih
    exact ⟨_, htrace.call⟩

/-- The system in which any answer is possible. -/
def anything (ι : Type) (S : Signature) : System ι S Unit where
  env _ _ := False
  exec _ _ _ _ _ := True
  rely _ _ _ := True
  rely_refl _ _ := trivial
  rely_trans _ _ _ _ _ _ := trivial
  env_rely _ _ _ _ := trivial
  exec_rely _ _ _ _ _ _ _ _ := trivial

/-- Every trace is a run there. -/
theorem runs_anything {p : Program S ε α} {events : List S.Event} {r : Except ε α}
    (h : p.Trace events r) (i : ι) : (anything ι S).Runs i p () r () := by
  induction p generalizing events with
  | ret a =>
    obtain ⟨-, rfl⟩ := h
    exact .ret _ _
  | raise e =>
    obtain ⟨-, rfl⟩ := h
    exact .raise _ _
  | call o k ih =>
    obtain ⟨x, rest, -, hrest⟩ := h
    have hexec : (anything ι S).exec i o () x () := trivial
    exact .call hexec (ih x hrest)

variable [DecidableEq ι] {sys : System ι S σ} {i : ι} {x : σ × Log ι S.Event}

/-- What a party has still to do, from a log it has already written, is all it has to do. -/
theorem safe_trace {p q : Program S ε α} {past : List S.Event}
    (hlog : ∃ done, x.2.of i = past ++ done ∧
      ∀ events r, p.Trace events r → q.Trace (done ++ events) r) :
    sys.traced.Safe i (fun _ => True) p
      (fun r x' => ∃ events, x'.2.of i = past ++ events ∧ q.Trace events r) x := by
  induction p generalizing x with
  | ret a =>
    obtain ⟨done, hpast, htrace⟩ := hlog
    exact ⟨done, hpast, by simpa using htrace [] (.ok a) ⟨rfl, rfl⟩⟩
  | raise e =>
    obtain ⟨done, hpast, htrace⟩ := hlog
    exact ⟨done, hpast, by simpa using htrace [] (.error e) ⟨rfl, rfl⟩⟩
  | call o k ih =>
    obtain ⟨done, hpast, htrace⟩ := hlog
    intro x₁ hrely r x₂ hexec
    refine ⟨trivial, ih r ⟨done ++ [⟨o, r⟩], ?_, fun events r' h => ?_⟩⟩
    · rw [hexec.2, Log.of_push, hrely.2, hpast, List.append_assoc]
    · rw [List.append_assoc]
      exact htrace _ r' ⟨r, events, rfl, h⟩

/-- The log of a party that has ended is its trace. -/
theorem Reachable.trace {procs : ι → Program S ε α}
    {c : Config ι S (σ × Log ι S.Event) ε α} (hr : sys.traced.Reachable ⟨x, procs⟩ c)
    {r : Except ε α} (ho : (c.procs i).outcome = some r) :
    ∃ events, c.shared.2.of i = x.2.of i ++ events ∧ (procs i).Trace events r := by
  have hsafe : sys.traced.Safe i (fun _ => True) (procs i) (fun r x' => ∃ events,
      x'.2.of i = x.2.of i ++ events ∧ (procs i).Trace events r) x :=
    safe_trace ⟨[], (List.append_nil _).symm, fun _ _ h => h⟩
  have hguarded := hr.started rfl (fun _ _ _ h => h) trivial hsafe
  refine hguarded.post (fun x₁ x₂ hrely h => ?_) ho
  obtain ⟨events, hlog, htrace⟩ := h
  exact ⟨events, hrely.2.trans hlog, htrace⟩

end System

end EvidenceCartographer.Concurrency
