import EvidenceCartographer.Concurrency.Trace

/-! What a program shows of its traces.

    A view keeps some of the events, as something else or as they are. What a compound program shows is
    what its parts show, one after the other: each rule is that of the traces, with the events that
    are not kept left out. -/

namespace EvidenceCartographer.Concurrency.Program

variable {S : Signature} {ε α β A : Type}

/-- A trace that ends in `r` shows this. -/
def Emits (view : S.Event → Option A) (p : Program S ε α) (shown : List A) (r : Except ε α) : Prop :=
  ∃ events, p.Trace events r ∧ shown = events.filterMap view

variable {view : S.Event → Option A} {shown : List A}

theorem Trace.emits {p : Program S ε α} {events : List S.Event} {r : Except ε α}
    (h : p.Trace events r) : p.Emits view (events.filterMap view) r :=
  ⟨events, h, rfl⟩

@[simp] theorem emits_ofExcept {x r : Except ε α} :
    (ofExcept x : Program S ε α).Emits view shown r ↔ shown = [] ∧ r = x := by
  constructor
  · rintro ⟨events, h, rfl⟩
    obtain ⟨rfl, rfl⟩ := trace_ofExcept.mp h
    exact ⟨rfl, rfl⟩
  · rintro ⟨rfl, rfl⟩
    exact ⟨[], trace_ofExcept.mpr ⟨rfl, rfl⟩, rfl⟩

@[simp] theorem emits_ret {a : α} {r : Except ε α} :
    (ret a : Program S ε α).Emits view shown r ↔ shown = [] ∧ r = .ok a :=
  emits_ofExcept (x := .ok a)

@[simp] theorem emits_raise {e : ε} {r : Except ε α} :
    (raise e : Program S ε α).Emits view shown r ↔ shown = [] ∧ r = .error e :=
  emits_ofExcept (x := .error e)

/-- A call shows what the view keeps of it. -/
theorem emits_call {o : S.Op} {k : S.Reply o → Program S ε α} {r : Except ε α} :
    (call o k).Emits view shown r ↔
      ∃ x rest, shown = (view ⟨o, x⟩).toList ++ rest ∧ (k x).Emits view rest r := by
  constructor
  · rintro ⟨_, ⟨x, rest, rfl, h⟩, rfl⟩
    refine ⟨x, _, ?_, h.emits⟩
    cases hview : view ⟨o, x⟩ <;> simp [hview]
  · rintro ⟨x, _, rfl, rest, h, rfl⟩
    refine ⟨_, h.call, ?_⟩
    cases hview : view ⟨o, x⟩ <;> simp [hview]

theorem emits_bind {p : Program S ε α} {f : α → Program S ε β} {r : Except ε β} :
    (p.bind f).Emits view shown r ↔ ∃ before after r₁, shown = before ++ after ∧
      p.Emits view before r₁ ∧
      match r₁ with
      | .ok a => (f a).Emits view after r
      | .error e => after = [] ∧ r = .error e := by
  constructor
  · rintro ⟨events, h, rfl⟩
    obtain ⟨before, after, r₁, rfl, hp, hf⟩ := trace_bind.mp h
    refine ⟨_, after.filterMap view, r₁, List.filterMap_append, hp.emits, ?_⟩
    rcases r₁ with e | a
    · obtain ⟨rfl, rfl⟩ := hf
      exact ⟨rfl, rfl⟩
    · exact hf.emits
  · rintro ⟨_, after, r₁, rfl, ⟨before, hp, rfl⟩, hf⟩
    rcases r₁ with e | a
    · obtain ⟨rfl, rfl⟩ := hf
      refine ⟨before, trace_bind.mpr ⟨before, [], .error e, ?_, hp, rfl, rfl⟩, ?_⟩
      · rw [List.append_nil]
      · rw [List.append_nil]
    · obtain ⟨events, hf, rfl⟩ := hf
      exact ⟨before ++ events, trace_bind.mpr ⟨before, events, .ok a, rfl, hp, hf⟩,
        List.filterMap_append.symm⟩

theorem emits_handle {p : Program S ε α} {h : ε → Program S ε α} {r : Except ε α} :
    (p.handle h).Emits view shown r ↔ ∃ before after r₁, shown = before ++ after ∧
      p.Emits view before r₁ ∧
      match r₁ with
      | .ok a => after = [] ∧ r = .ok a
      | .error e => (h e).Emits view after r := by
  constructor
  · rintro ⟨events, htrace, rfl⟩
    obtain ⟨before, after, r₁, rfl, hp, hh⟩ := trace_handle.mp htrace
    refine ⟨_, after.filterMap view, r₁, List.filterMap_append, hp.emits, ?_⟩
    rcases r₁ with e | a
    · exact hh.emits
    · obtain ⟨rfl, rfl⟩ := hh
      exact ⟨rfl, rfl⟩
  · rintro ⟨_, after, r₁, rfl, ⟨before, hp, rfl⟩, hh⟩
    rcases r₁ with e | a
    · obtain ⟨events, hh, rfl⟩ := hh
      exact ⟨before ++ events, trace_handle.mpr ⟨before, events, .error e, rfl, hp, hh⟩,
        List.filterMap_append.symm⟩
    · obtain ⟨rfl, rfl⟩ := hh
      refine ⟨before, trace_handle.mpr ⟨before, [], .ok a, ?_, hp, rfl, rfl⟩, ?_⟩
      · rw [List.append_nil]
      · rw [List.append_nil]

theorem emits_attempt {p : Program S ε α} {r : Except ε (Except ε α)} :
    p.attempt.Emits view shown r ↔ ∃ r₁, p.Emits view shown r₁ ∧ r = .ok r₁ := by
  constructor
  · rintro ⟨events, h, rfl⟩
    obtain ⟨r₁, hp, rfl⟩ := trace_attempt.mp h
    exact ⟨r₁, hp.emits, rfl⟩
  · rintro ⟨r₁, ⟨events, hp, rfl⟩, rfl⟩
    exact ⟨events, trace_attempt.mpr ⟨r₁, hp, rfl⟩, rfl⟩

end EvidenceCartographer.Concurrency.Program
