import EvidenceCartographer.Concurrency.Trace

/-! What a program does to the state of its environment.

    `step` says which answers an operation may have in a state, and what it leaves. `Takes` runs a
    program through it, with one rule for each way to build a program; a trace whose events step from
    one state to another takes the program there. -/

namespace EvidenceCartographer.Concurrency

namespace Program

variable {S : Signature} {ε α β σ : Type} {step : (o : S.Op) → S.Reply o → σ → σ → Prop}
  {s s' : σ}

/-- From the first state the program can end in `r`, in the second state. -/
def Takes (step : (o : S.Op) → S.Reply o → σ → σ → Prop) :
    Program S ε α → σ → Except ε α → σ → Prop
  | .ret a, s, r, s' => r = .ok a ∧ s' = s
  | .raise e, s, r, s' => r = .error e ∧ s' = s
  | .call o k, s, r, s' => ∃ x mid, step o x s mid ∧ (k x).Takes step mid r s'

@[simp] theorem takes_ret {a : α} {r : Except ε α} :
    (ret a : Program S ε α).Takes step s r s' ↔ r = .ok a ∧ s' = s := Iff.rfl

@[simp] theorem takes_raise {e : ε} {r : Except ε α} :
    (raise e : Program S ε α).Takes step s r s' ↔ r = .error e ∧ s' = s := Iff.rfl

@[simp] theorem takes_ofExcept {x r : Except ε α} :
    (ofExcept x : Program S ε α).Takes step s r s' ↔ r = x ∧ s' = s := by
  cases x <;> exact Iff.rfl

theorem takes_reply {o : S.Op} {f : S.Reply o → Except ε α} {r : Except ε α} :
    (call o fun x => ofExcept (f x)).Takes step s r s' ↔ ∃ x, step o x s s' ∧ r = f x := by
  constructor
  · rintro ⟨x, mid, hstep, h⟩
    obtain ⟨rfl, rfl⟩ := takes_ofExcept.mp h
    exact ⟨x, hstep, rfl⟩
  · rintro ⟨x, hstep, rfl⟩
    exact ⟨x, s', hstep, takes_ofExcept.mpr ⟨rfl, rfl⟩⟩

theorem takes_bind {p : Program S ε α} {f : α → Program S ε β} {r : Except ε β} :
    (p.bind f).Takes step s r s' ↔ ∃ r₁ mid, p.Takes step s r₁ mid ∧
      match r₁ with
      | .ok a => (f a).Takes step mid r s'
      | .error e => r = .error e ∧ s' = mid := by
  induction p generalizing s with
  | ret a =>
    constructor
    · exact fun h => ⟨.ok a, s, ⟨rfl, rfl⟩, h⟩
    · rintro ⟨r₁, mid, ⟨rfl, rfl⟩, h⟩
      exact h
  | raise e =>
    constructor
    · exact fun h => ⟨.error e, s, ⟨rfl, rfl⟩, h⟩
    · rintro ⟨r₁, mid, ⟨rfl, rfl⟩, h⟩
      exact h
  | call o k ih =>
    constructor
    · rintro ⟨x, next, hstep, h⟩
      obtain ⟨r₁, mid, hp, hf⟩ := (ih x).mp h
      exact ⟨r₁, mid, ⟨x, next, hstep, hp⟩, hf⟩
    · rintro ⟨r₁, mid, ⟨x, next, hstep, hp⟩, hf⟩
      exact ⟨x, next, hstep, (ih x).mpr ⟨r₁, mid, hp, hf⟩⟩

theorem takes_attempt {p : Program S ε α} {r : Except ε (Except ε α)} :
    p.attempt.Takes step s r s' ↔ ∃ r₁, p.Takes step s r₁ s' ∧ r = .ok r₁ := by
  induction p generalizing s with
  | ret a =>
    constructor
    · rintro ⟨rfl, rfl⟩
      exact ⟨_, ⟨rfl, rfl⟩, rfl⟩
    · rintro ⟨_, ⟨rfl, rfl⟩, rfl⟩
      exact ⟨rfl, rfl⟩
  | raise e =>
    constructor
    · rintro ⟨rfl, rfl⟩
      exact ⟨_, ⟨rfl, rfl⟩, rfl⟩
    · rintro ⟨_, ⟨rfl, rfl⟩, rfl⟩
      exact ⟨rfl, rfl⟩
  | call o k ih =>
    constructor
    · rintro ⟨x, next, hstep, h⟩
      obtain ⟨r₁, hp, rfl⟩ := (ih x).mp h
      exact ⟨r₁, ⟨x, next, hstep, hp⟩, rfl⟩
    · rintro ⟨r₁, ⟨x, next, hstep, hp⟩, rfl⟩
      exact ⟨x, next, hstep, (ih x).mpr ⟨r₁, hp, rfl⟩⟩

theorem Takes.ensuring {p : Program S ε α} {cleanup : Program S ε Unit} {r : Except ε α}
    (h : (p.ensuring cleanup).Takes step s r s') : ∃ r₁ mid cleaned, p.Takes step s r₁ mid ∧
      cleanup.Takes step mid cleaned s' ∧ r = match cleaned with
        | .ok _ => r₁
        | .error e => .error e := by
  obtain ⟨_, mid, hattempt, hrest⟩ := takes_bind.mp h
  obtain ⟨r₁, hp, rfl⟩ := takes_attempt.mp hattempt
  obtain ⟨cleaned, last, hcleanup, hlast⟩ := takes_bind.mp hrest
  refine ⟨r₁, mid, cleaned, hp, ?_⟩
  rcases cleaned with e | ⟨⟨⟩⟩
  · obtain ⟨rfl, rfl⟩ := hlast
    exact ⟨hcleanup, rfl⟩
  · cases r₁ <;>
    · obtain ⟨rfl, rfl⟩ := hlast
      exact ⟨hcleanup, rfl⟩

/-- The events lead from the first state to the second. -/
def Steps (step : (o : S.Op) → S.Reply o → σ → σ → Prop) : σ → List S.Event → σ → Prop
  | s, [], s' => s' = s
  | s, event :: events, s' => ∃ mid, step event.1 event.2 s mid ∧ Steps step mid events s'

theorem Steps.concat {events : List S.Event} {event : S.Event} {mid : σ}
    (h : Steps step s events mid) (hstep : step event.1 event.2 mid s') :
    Steps step s (events ++ [event]) s' := by
  induction events generalizing s with
  | nil =>
    obtain rfl := h
    exact ⟨s', hstep, rfl⟩
  | cons first events ih =>
    obtain ⟨next, hfirst, h⟩ := h
    exact ⟨next, hfirst, ih h⟩

/-- Steps seen in another state. -/
theorem Steps.map {τ : Type} {step' : (o : S.Op) → S.Reply o → τ → τ → Prop}
    {events : List S.Event} (f : σ → τ) (hstep : ∀ o x s s', step o x s s' → step' o x (f s) (f s'))
    (h : Steps step s events s') : Steps step' (f s) events (f s') := by
  induction events generalizing s with
  | nil => exact congrArg f h
  | cons event events ih =>
    obtain ⟨mid, hevent, h⟩ := h
    exact ⟨f mid, hstep _ _ _ _ hevent, ih h⟩

/-- What is known of every answer is known of every step. -/
theorem Steps.assuming {events : List S.Event} {P : (o : S.Op) → S.Reply o → Prop}
    (h : Steps step s events s') (hP : ∀ event ∈ events, P event.1 event.2) :
    Steps (fun o x s s' => step o x s s' ∧ P o x) s events s' := by
  induction events generalizing s with
  | nil => exact h
  | cons event events ih =>
    obtain ⟨hevent, hevents⟩ := List.forall_mem_cons.mp hP
    obtain ⟨mid, hstep, h⟩ := h
    exact ⟨mid, ⟨hstep, hevent⟩, ih h hevents⟩

theorem Trace.takes {p : Program S ε α} {events : List S.Event} {r : Except ε α}
    (h : p.Trace events r) (hsteps : Steps step s events s') : p.Takes step s r s' := by
  induction p generalizing s events with
  | ret a =>
    obtain ⟨rfl, rfl⟩ := h
    exact ⟨rfl, hsteps⟩
  | raise e =>
    obtain ⟨rfl, rfl⟩ := h
    exact ⟨rfl, hsteps⟩
  | call o k ih =>
    obtain ⟨x, rest, rfl, h⟩ := h
    obtain ⟨mid, hstep, hrest⟩ := hsteps
    exact ⟨x, mid, hstep, ih x h hrest⟩

end Program

namespace System

variable {ι σ ε α : Type} {S : Signature} [DecidableEq ι] {sys : System ι S σ} {i : ι}

/-- A trace whose events step through the states of a party is a run of it, and its log. -/
theorem runs_of_steps {p : Program S ε α} {events : List S.Event} {r : Except ε α} {s s' : σ}
    (h : p.Trace events r)
    (hsteps : Program.Steps (fun o x s s' => sys.exec i o s x s') s events s')
    (l : Log ι S.Event) :
    ∃ l' : Log ι S.Event, l'.of i = l.of i ++ events ∧ sys.traced.Runs i p (s, l) r (s', l') := by
  induction p generalizing s events l with
  | ret a =>
    obtain ⟨rfl, rfl⟩ := h
    obtain rfl : s' = s := hsteps
    exact ⟨l, (List.append_nil _).symm, .ret a _⟩
  | raise e =>
    obtain ⟨rfl, rfl⟩ := h
    obtain rfl : s' = s := hsteps
    exact ⟨l, (List.append_nil _).symm, .raise e _⟩
  | call o k ih =>
    obtain ⟨x, rest, rfl, h⟩ := h
    obtain ⟨mid, hstep, hrest⟩ := hsteps
    obtain ⟨l', hlog, hrun⟩ := ih x h hrest (l.push i ⟨o, x⟩)
    have hexec : sys.traced.exec i o (s, l) x (mid, l.push i ⟨o, x⟩) := ⟨hstep, rfl⟩
    refine ⟨l', ?_, .call hexec hrun⟩
    rw [hlog, Log.of_push, List.append_assoc]
    rfl

end System

end EvidenceCartographer.Concurrency
