import EvidenceCartographer.Concurrency.Trace

/-! Programs that do the same under other names.

    A program mirrors another through a renaming of events when each of its traces that meets only
    admissible events is, renamed, a trace of the other that ends alike. It may do something else where
    an event is not admissible: so two programs that differ in one case are compared on the runs that
    never come to it. There is one rule for each way to build a program. -/

namespace EvidenceCartographer.Concurrency.Program

variable {S : Signature} {ε α β : Type}

/-- Each trace of `p` whose events are admissible is, renamed, a trace of `q`. -/
def Mirrors (rename : S.Event → S.Event) (admissible : S.Event → Prop) (p q : Program S ε α) : Prop :=
  ∀ events r, p.Trace events r → (∀ event ∈ events, admissible event) →
    q.Trace (events.map rename) r

variable {rename : S.Event → S.Event} {admissible : S.Event → Prop} {p q : Program S ε α}

theorem mirrors_ofExcept (x : Except ε α) :
    (ofExcept x).Mirrors rename admissible (ofExcept x : Program S ε α) := by
  intro events r h _
  obtain ⟨rfl, rfl⟩ := trace_ofExcept.mp h
  exact trace_ofExcept.mpr ⟨rfl, rfl⟩

/-- A program whose own events keep their names mirrors itself. -/
theorem mirrors_self {P : S.Op → Prop} (h : p.Calls P)
    (hsame : ∀ event : S.Event, P event.1 → rename event = event) :
    p.Mirrors rename admissible p := by
  intro events r htrace _
  have hevents : events.map rename = events.map id :=
    List.map_congr_left fun event hevent => hsame event (htrace.calls h event hevent)
  rw [hevents, List.map_id]
  exact htrace

/-- One call for another, where each admissible answer of the one answers the other. -/
theorem mirrors_call {o o' : S.Op} {k : S.Reply o → Program S ε α} {k' : S.Reply o' → Program S ε α}
    (h : ∀ x, admissible ⟨o, x⟩ → ∃ x', rename ⟨o, x⟩ = ⟨o', x'⟩ ∧
      (k x).Mirrors rename admissible (k' x')) :
    (call o k).Mirrors rename admissible (call o' k') := by
  rintro events r ⟨x, rest, rfl, htrace⟩ hadmissible
  obtain ⟨hx, hrest⟩ := List.forall_mem_cons.mp hadmissible
  obtain ⟨x', hrename, hmirrors⟩ := h x hx
  rw [List.map_cons, hrename]
  exact .call (hmirrors rest r htrace hrest)

theorem Mirrors.bind {f g : α → Program S ε β} (hp : p.Mirrors rename admissible q)
    (hf : ∀ a, (f a).Mirrors rename admissible (g a)) :
    (p.bind f).Mirrors rename admissible (q.bind g) := by
  intro events r htrace hadmissible
  obtain ⟨before, after, r₁, rfl, hbefore, hafter⟩ := trace_bind.mp htrace
  obtain ⟨hadmissible, hadmissible'⟩ := List.forall_mem_append.mp hadmissible
  have hq := hp before r₁ hbefore hadmissible
  rw [List.map_append]
  refine trace_bind.mpr ⟨_, _, r₁, rfl, hq, ?_⟩
  rcases r₁ with e | a
  · obtain ⟨rfl, rfl⟩ := hafter
    exact ⟨rfl, rfl⟩
  · exact hf a after r hafter hadmissible'

theorem Mirrors.handle {f g : ε → Program S ε α} (hp : p.Mirrors rename admissible q)
    (hf : ∀ e, (f e).Mirrors rename admissible (g e)) :
    (p.handle f).Mirrors rename admissible (q.handle g) := by
  intro events r htrace hadmissible
  obtain ⟨before, after, r₁, rfl, hbefore, hafter⟩ := trace_handle.mp htrace
  obtain ⟨hadmissible, hadmissible'⟩ := List.forall_mem_append.mp hadmissible
  have hq := hp before r₁ hbefore hadmissible
  rw [List.map_append]
  refine trace_handle.mpr ⟨_, _, r₁, rfl, hq, ?_⟩
  rcases r₁ with e | a
  · exact hf e after r hafter hadmissible'
  · obtain ⟨rfl, rfl⟩ := hafter
    exact ⟨rfl, rfl⟩

end EvidenceCartographer.Concurrency.Program
