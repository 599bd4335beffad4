import EvidenceCartographer.Concurrency.Trace

/-! Programs that implement others over a finer signature.

    A correspondence says which histories of the finer signature stand for which of the coarser one,
    and is closed under putting histories one after the other. A program implements another when each
    of its traces stands for a trace of the other that ends alike; the ways to build a program keep
    that. So what holds of every trace of a program holds, through the correspondence, of every trace
    of what implements it.

    A history is accepted by a protocol, a partial automaton, if its events can be read one after the
    other; that too is for the parts of a history to show. -/

namespace EvidenceCartographer.Concurrency

variable {S T : Signature} {ε α β Q : Type}

/-- Which histories of `S` stand for which of `T`. -/
structure Correspondence (S T : Signature) where
  Rel : List S.Event → List T.Event → Prop
  nil : Rel [] []
  append : ∀ {events events' history history'}, Rel events history → Rel events' history' →
    Rel (events ++ events') (history ++ history')

/-- Each trace of the finer program stands for one of the coarser that ends alike. -/
def Program.Implements (C : Correspondence S T) (p : Program S ε α) (q : Program T ε α) : Prop :=
  ∀ ⦃events r⦄, p.Trace events r → ∃ history, q.Trace history r ∧ C.Rel events history

namespace Program

variable {C : Correspondence S T} {p : Program S ε α} {q : Program T ε α}

theorem implements_ret (a : α) : Implements C (ret a : Program S ε α) (ret a) := by
  rintro events r ⟨rfl, rfl⟩
  exact ⟨[], ⟨rfl, rfl⟩, C.nil⟩

theorem implements_raise (e : ε) : Implements C (raise e : Program S ε α) (raise e) := by
  rintro events r ⟨rfl, rfl⟩
  exact ⟨[], ⟨rfl, rfl⟩, C.nil⟩

theorem implements_ofExcept (x : Except ε α) :
    Implements C (ofExcept x : Program S ε α) (ofExcept x) := by
  cases x with
  | ok a => exact implements_ret a
  | error e => exact implements_raise e

theorem Implements.bind {f : α → Program S ε β} {g : α → Program T ε β} (hp : Implements C p q)
    (hf : ∀ a, Implements C (f a) (g a)) : Implements C (p.bind f) (q.bind g) := by
  intro events r htrace
  obtain ⟨before, after, r₁, rfl, hbefore, hafter⟩ := trace_bind.mp htrace
  obtain ⟨history, hq, hrel⟩ := hp hbefore
  rcases r₁ with e | a
  · obtain ⟨rfl, rfl⟩ := hafter
    refine ⟨history, trace_bind.mpr ⟨history, [], .error e, ?_, hq, rfl, rfl⟩, ?_⟩
    · rw [List.append_nil]
    · rwa [List.append_nil]
  · obtain ⟨history', hg, hrel'⟩ := hf a hafter
    exact ⟨history ++ history', trace_bind.mpr ⟨history, history', .ok a, rfl, hq, hg⟩,
      C.append hrel hrel'⟩

theorem Implements.handle {f : ε → Program S ε α} {g : ε → Program T ε α} (hp : Implements C p q)
    (hf : ∀ e, Implements C (f e) (g e)) : Implements C (p.handle f) (q.handle g) := by
  intro events r htrace
  obtain ⟨before, after, r₁, rfl, hbefore, hafter⟩ := trace_handle.mp htrace
  obtain ⟨history, hq, hrel⟩ := hp hbefore
  rcases r₁ with e | a
  · obtain ⟨history', hg, hrel'⟩ := hf e hafter
    exact ⟨history ++ history', trace_handle.mpr ⟨history, history', .error e, rfl, hq, hg⟩,
      C.append hrel hrel'⟩
  · obtain ⟨rfl, rfl⟩ := hafter
    refine ⟨history, trace_handle.mpr ⟨history, [], .ok a, ?_, hq, rfl, rfl⟩, ?_⟩
    · rw [List.append_nil]
    · rwa [List.append_nil]

/-- The cleanup for the cleanup. -/
theorem Implements.ensuring {cleanup : Program S ε Unit} {cleanup' : Program T ε Unit}
    (hp : Implements C p q) (hcleanup : Implements C cleanup cleanup') :
    Implements C (p.ensuring cleanup) (q.ensuring cleanup') := by
  intro events r htrace
  obtain ⟨before, after, r₁, cleaned, rfl, hbefore, hafter, rfl⟩ := trace_ensuring.mp htrace
  obtain ⟨history, hq, hrel⟩ := hp hbefore
  obtain ⟨history', hcleaned, hrel'⟩ := hcleanup hafter
  exact ⟨history ++ history', trace_ensuring.mpr ⟨history, history', r₁, cleaned, rfl, hq, hcleaned, rfl⟩,
    C.append hrel hrel'⟩

/-- A part over a first environment that is seen more finely. -/
theorem implements_inl {S' T' : Signature} {C : Correspondence (S.sum S') (T.sum T')}
    (h : ∀ events r, p.Trace events r → ∃ history, q.Trace history r ∧
      C.Rel (events.map inlEvent) (history.map inlEvent)) : Implements C p.inl q.inl := by
  intro events r htrace
  obtain ⟨own, rfl, hown⟩ := trace_inl.mp htrace
  obtain ⟨history, hq, hrel⟩ := h own r hown
  exact ⟨_, trace_inl.mpr ⟨history, rfl, hq⟩, hrel⟩

/-- A part over a second environment that is seen as it is. -/
theorem implements_inr {U : Signature} {C : Correspondence (S.sum U) (T.sum U)}
    (h : ∀ event : U.Event, C.Rel [inrEvent event] [inrEvent event]) (p : Program U ε α) :
    Implements C p.inr p.inr := by
  intro events r htrace
  obtain ⟨own, rfl, hown⟩ := trace_inr.mp htrace
  refine ⟨own.map inrEvent, trace_inr.mpr ⟨own, rfl, hown⟩, ?_⟩
  clear htrace hown
  induction own with
  | nil => exact C.nil
  | cons event own ih => exact C.append (h event) ih

end Program

/-- A protocol: what an event makes of a state, if the event is allowed there. -/
abbrev Protocol (S : Signature) (Q : Type) := Q → S.Event → Option Q

namespace Protocol

variable (step : Protocol S Q) {events events' : List S.Event} {s s' s'' : Q}

/-- From `s`, the events are allowed one after the other and lead to `s'`. -/
def Accepts (s : Q) (events : List S.Event) (s' : Q) : Prop := events.foldlM step s = some s'

variable {step}

theorem Accepts.nil : Accepts step s [] s := rfl

theorem accepts_cons {event : S.Event} :
    Accepts step s (event :: events) s' ↔ ∃ mid, step s event = some mid ∧
      Accepts step mid events s' := by
  simp only [Accepts, List.foldlM_cons, Option.bind_eq_bind, Option.bind_eq_some_iff]

theorem accepts_append :
    Accepts step s (events ++ events') s' ↔ ∃ mid, Accepts step s events mid ∧
      Accepts step mid events' s' := by
  simp only [Accepts, List.foldlM_append, Option.bind_eq_bind, Option.bind_eq_some_iff]

theorem Accepts.append (h : Accepts step s events s') (h' : Accepts step s' events' s'') :
    Accepts step s (events ++ events') s'' :=
  accepts_append.mpr ⟨s', h, h'⟩

/-- Events that all leave a state as it is. -/
theorem accepts_loop (h : ∀ event ∈ events, step s event = some s) : Accepts step s events s := by
  induction events with
  | nil => exact .nil
  | cons event events ih =>
    refine accepts_cons.mpr ⟨s, h event List.mem_cons_self, ih fun event' hevent => ?_⟩
    exact h event' (List.mem_cons_of_mem _ hevent)

end Protocol

end EvidenceCartographer.Concurrency
