import EvidenceCartographer.Concurrency.Trace

/-! How often a program makes calls of one kind.

    A budget bounds the number of such events in every trace, whatever is answered. It adds up along
    the ways to build a program; a handler is paid for besides what it handles. -/

namespace EvidenceCartographer.Concurrency.Program

variable {S : Signature} {ε α β : Type} {counts : S.Event → Bool} {n m : Nat} {p : Program S ε α}

/-- Every trace of the program has at most `n` events that count. -/
def Budget (counts : S.Event → Bool) (n : Nat) (p : Program S ε α) : Prop :=
  ∀ ⦃events r⦄, p.Trace events r → events.countP counts ≤ n

theorem Budget.mono (h : p.Budget counts n) (hle : n ≤ m) : p.Budget counts m :=
  fun _ _ htrace => Nat.le_trans (h htrace) hle

theorem budget_ofExcept (x : Except ε α) : (ofExcept x : Program S ε α).Budget counts n := by
  intro events r h
  obtain ⟨rfl, rfl⟩ := trace_ofExcept.mp h
  exact Nat.zero_le n

theorem budget_raise (e : ε) : (raise e : Program S ε α).Budget counts n :=
  budget_ofExcept (.error e)

/-- One call, counted or not. -/
theorem budget_reply {o : S.Op} {f : S.Reply o → Except ε α}
    (h : ∀ x, (if counts ⟨o, x⟩ then 1 else 0) ≤ n) :
    (call o fun x => ofExcept (f x)).Budget counts n := by
  intro events r htrace
  obtain ⟨x, rfl, rfl⟩ := trace_reply.mp htrace
  simpa using h x

/-- A call that does not count, and what follows it. -/
theorem budget_call {o : S.Op} {k : S.Reply o → Program S ε α} (ho : ∀ x, counts ⟨o, x⟩ = false)
    (hk : ∀ x, (k x).Budget counts n) : (call o k).Budget counts n := by
  rintro events r ⟨x, rest, rfl, hrest⟩
  rw [List.countP_cons, ho]
  exact hk x hrest

theorem Budget.bind {f : α → Program S ε β} (hp : p.Budget counts n)
    (hf : ∀ a, (f a).Budget counts m) : (p.bind f).Budget counts (n + m) := by
  intro events r h
  obtain ⟨before, after, r₁, rfl, hbefore, hafter⟩ := trace_bind.mp h
  rw [List.countP_append]
  refine Nat.add_le_add (hp hbefore) ?_
  rcases r₁ with e | a
  · rw [hafter.1]
    exact Nat.zero_le m
  · exact hf a hafter

theorem Budget.handle {f : ε → Program S ε α} (hp : p.Budget counts n)
    (hf : ∀ e, (f e).Budget counts m) : (p.handle f).Budget counts (n + m) := by
  intro events r h
  obtain ⟨before, after, r₁, rfl, hbefore, hafter⟩ := trace_handle.mp h
  rw [List.countP_append]
  refine Nat.add_le_add (hp hbefore) ?_
  rcases r₁ with e | a
  · exact hf e hafter
  · rw [hafter.1]
    exact Nat.zero_le m

/-- What makes none of the calls that count. -/
theorem Calls.budget {P : S.Op → Prop} (h : p.Calls P)
    (hquiet : ∀ event : S.Event, P event.1 → counts event = false) : p.Budget counts n := by
  intro events r htrace
  have hzero : events.countP counts = 0 := List.countP_eq_zero.mpr fun event hevent => by
    simp [hquiet event (htrace.calls h event hevent)]
  exact hzero ▸ Nat.zero_le n

end EvidenceCartographer.Concurrency.Program
