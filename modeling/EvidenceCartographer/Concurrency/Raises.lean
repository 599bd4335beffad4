import EvidenceCartographer.Concurrency.Trace

/-! What a program can raise.

    An exception that ends a program is either of a kind that its own text raises, or it came with an
    answer: an operation gave it, and nothing on the way translated it. There is one rule for each way
    to build a program, and a handler answers for whatever it is handed. -/

namespace EvidenceCartographer.Concurrency.Program

variable {S T : Signature} {ε α β : Type}

/-- Whatever ends a trace is of the kind `E`, or was given by one of its events. -/
def Raises (given : S.Event → ε → Prop) (E : ε → Prop) (p : Program S ε α) : Prop :=
  ∀ events e, p.Trace events (.error e) → E e ∨ ∃ event ∈ events, given event e

variable {given : S.Event → ε → Prop} {E : ε → Prop}

theorem Raises.mono {p : Program S ε α} {E' : ε → Prop} (h : p.Raises given E)
    (hE : ∀ e, E e → E' e) : p.Raises given E' :=
  fun events e htrace => (h events e htrace).imp_left (hE e)

/-- What follows may raise what came with the answers before it. -/
theorem Raises.bind_given {p : Program S ε α} {f : α → Program S ε β} (hp : p.Raises given E)
    (hf : ∀ events a, p.Trace events (.ok a) →
      (f a).Raises given fun e => E e ∨ ∃ event ∈ events, given event e) :
    (p.bind f).Raises given E := by
  intro events e htrace
  obtain ⟨before, after, r, rfl, htrace, hafter⟩ := trace_bind.mp htrace
  rcases r with e' | a
  · obtain ⟨rfl, he⟩ := hafter
    cases he
    rw [List.append_nil]
    exact hp before e htrace
  · rcases hf before a htrace after e hafter with (hkind | ⟨event, hmem, hgiven⟩) | ⟨event, hmem, hgiven⟩
    · exact .inl hkind
    · exact .inr ⟨event, List.mem_append_left _ hmem, hgiven⟩
    · exact .inr ⟨event, List.mem_append_right _ hmem, hgiven⟩

theorem Raises.bind {p : Program S ε α} {f : α → Program S ε β} (hp : p.Raises given E)
    (hf : ∀ events a, p.Trace events (.ok a) → (f a).Raises given E) : (p.bind f).Raises given E :=
  hp.bind_given fun events a htrace => (hf events a htrace).mono fun _ h => .inl h

/-- A handler answers for whatever it is handed. -/
theorem Raises.handle {p : Program S ε α} {h : ε → Program S ε α}
    (hh : ∀ events e, p.Trace events (.error e) →
      (h e).Raises given fun e' => E e' ∨ ∃ event ∈ events, given event e') :
    (p.handle h).Raises given E := by
  intro events e htrace
  obtain ⟨before, after, r, rfl, htrace, hafter⟩ := trace_handle.mp htrace
  rcases r with e' | a
  · rcases hh before e' htrace after e hafter with (hkind | ⟨event, hmem, hgiven⟩) | ⟨event, hmem, hgiven⟩
    · exact .inl hkind
    · exact .inr ⟨event, List.mem_append_left _ hmem, hgiven⟩
    · exact .inr ⟨event, List.mem_append_right _ hmem, hgiven⟩
  · cases hafter.2

theorem Raises.ensuring {p : Program S ε α} {cleanup : Program S ε Unit} (hp : p.Raises given E)
    (hcleanup : cleanup.Raises given E) : (p.ensuring cleanup).Raises given E := by
  intro events e htrace
  obtain ⟨before, after, r, cleaned, rfl, htrace, hafter, hr⟩ := trace_ensuring.mp htrace
  rcases cleaned with e' | ⟨⟨⟩⟩
  · cases hr
    rcases hcleanup after e hafter with hkind | ⟨event, hmem, hgiven⟩
    · exact .inl hkind
    · exact .inr ⟨event, List.mem_append_right _ hmem, hgiven⟩
  · cases hr
    rcases hp before e htrace with hkind | ⟨event, hmem, hgiven⟩
    · exact .inl hkind
    · exact .inr ⟨event, List.mem_append_left _ hmem, hgiven⟩

theorem Raises.inl {p : Program S ε α} {given' : (S.sum T).Event → ε → Prop} (h : p.Raises given E)
    (hgiven : ∀ event e, given event e → given' (inlEvent event) e) :
    (p.inl : Program (S.sum T) ε α).Raises given' E := by
  intro events e htrace
  obtain ⟨own, rfl, hown⟩ := trace_inl.mp htrace
  rcases h own e hown with hkind | ⟨event, hmem, hgives⟩
  · exact .inl hkind
  · exact .inr ⟨_, List.mem_map_of_mem hmem, hgiven event e hgives⟩

end EvidenceCartographer.Concurrency.Program
