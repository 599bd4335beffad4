import EvidenceCartographer.Concurrency.Log
import EvidenceCartographer.Concurrency.Run

/-! Systems that remember what their parties were answered.

    `traced` adds to the state a log of every operation with its answer. It allows no run less and no
    run more, so what is proved of it with the log in hand holds of the system itself; and a result
    that assumes something of its surroundings can say so of the log. `assuming` is the other way to
    say it, for exhibiting a run: a system in which only some answers are possible. -/

namespace EvidenceCartographer.Concurrency

/-- An operation and its answer. -/
abbrev Signature.Event (S : Signature) := (o : S.Op) × S.Reply o

theorem Log.of_push {ι α : Type} [DecidableEq ι] (l : Log ι α) (i : ι) (a : α) :
    (l.push i a).of i = l.of i ++ [a] := Function.update_self ..

namespace System

variable {ι σ ε α : Type} {S : Signature}

/-- The system in which every answer meets `P`. -/
def assuming (sys : System ι S σ) (P : (o : S.Op) → S.Reply o → Prop) : System ι S σ :=
  { sys with
    exec := fun i o s r s' => sys.exec i o s r s' ∧ P o r
    exec_rely := fun i j o s r s' hne h => sys.exec_rely i j o s r s' hne h.1 }

variable [DecidableEq ι]

/-- The system with a log of what was answered. -/
def traced (sys : System ι S σ) : System ι S (σ × Log ι S.Event) where
  env x x' := sys.env x.1 x'.1 ∧ x'.2 = x.2
  exec i o x r x' := sys.exec i o x.1 r x'.1 ∧ x'.2 = x.2.push i ⟨o, r⟩
  rely i x x' := sys.rely i x.1 x'.1 ∧ x'.2.of i = x.2.of i
  rely_refl i x := ⟨sys.rely_refl i x.1, rfl⟩
  rely_trans i x₁ x₂ x₃ h h' := ⟨sys.rely_trans i _ _ _ h.1 h'.1, h'.2.trans h.2⟩
  env_rely i x x' h := ⟨sys.env_rely i _ _ h.1, by rw [h.2]⟩
  exec_rely i j o x r x' hne h :=
    ⟨sys.exec_rely i j o _ r _ hne h.1, by rw [h.2]; exact Function.update_of_ne hne _ _⟩

variable {sys : System ι S σ} {i : ι} {s s' : σ}

/-- The log can be forgotten. -/
theorem Safe.untraced {p : Program S ε α} {J : σ → Prop} {Q : Except ε α → σ → Prop}
    {l : Log ι S.Event}
    (h : sys.traced.Safe i (fun x => J x.1) p (fun r x => Q r x.1) (s, l)) :
    sys.Safe i J p Q s := by
  induction p generalizing s l with
  | ret a => exact h
  | raise e => exact h
  | call o k ih =>
    intro s₁ hr r s₂ hexec
    obtain ⟨hJ, hnext⟩ := h (s₁, l) ⟨hr, rfl⟩ r (s₂, l.push i ⟨o, r⟩) ⟨hexec, rfl⟩
    exact ⟨hJ, ih r hnext⟩

/-- Every run leaves a log. -/
theorem Reachable.traced {procs : ι → Program S ε α} {c : Config ι S σ ε α}
    (hr : sys.Reachable ⟨s, procs⟩ c) (l : Log ι S.Event) :
    ∃ l', sys.traced.Reachable ⟨(s, l), procs⟩ ⟨(c.shared, l'), c.procs⟩ := by
  induction hr with
  | refl => exact ⟨l, .refl⟩
  | tail _ hs ih =>
    obtain ⟨l', hr'⟩ := ih
    cases hs with
    | env he => exact ⟨l', hr'.tail (.env ⟨he, rfl⟩)⟩
    | run j r hp hexec => exact ⟨l'.push j ⟨_, r⟩, hr'.tail (.run j r hp ⟨hexec, rfl⟩)⟩

/-- A run with a log is a run. -/
theorem Reachable.untraced {x : σ × Log ι S.Event} {procs : ι → Program S ε α}
    {c : Config ι S (σ × Log ι S.Event) ε α} (hr : sys.traced.Reachable ⟨x, procs⟩ c) :
    sys.Reachable ⟨x.1, procs⟩ ⟨c.shared.1, c.procs⟩ := by
  induction hr with
  | refl => exact .refl
  | tail _ hs ih =>
    cases hs with
    | env he => exact ih.env he.1
    | run j r hp hexec => exact ih.run j hp hexec.1

variable {P : (o : S.Op) → S.Reply o → Prop}

/-- A run under an assumption leaves a log in which every answer meets it. -/
theorem Runs.traced {p : Program S ε α} {r : Except ε α} (h : (sys.assuming P).Runs i p s r s')
    {l : Log ι S.Event} (hl : ∀ event ∈ l.of i, P event.1 event.2) :
    ∃ l' : Log ι S.Event, (∀ event ∈ l'.of i, P event.1 event.2) ∧
      sys.traced.Runs i p (s, l) r (s', l') := by
  induction h generalizing l with
  | ret a s => exact ⟨l, hl, .ret a _⟩
  | raise e s => exact ⟨l, hl, .raise e _⟩
  | @env p s s' s'' r he _ ih =>
    obtain ⟨l', hl', hrun⟩ := ih hl
    have hmove : sys.traced.env (s, l) (s', l) := ⟨he, rfl⟩
    exact ⟨l', hl', .env hmove hrun⟩
  | @call o k s x s' r s'' hexec _ ih =>
    have hpush : ∀ event ∈ (l.push i ⟨o, x⟩).of i, P event.1 event.2 := by
      rw [Log.of_push]
      intro event hevent
      rcases List.mem_append.mp hevent with hevent | hevent
      · exact hl event hevent
      · rw [List.mem_singleton.mp hevent]
        exact hexec.2
    obtain ⟨l', hl', hrun⟩ := ih hpush
    have hmove : sys.traced.exec i o (s, l) x (s', l.push i ⟨o, x⟩) := ⟨hexec.1, rfl⟩
    exact ⟨l', hl', .call hmove hrun⟩

end System

end EvidenceCartographer.Concurrency
