import EvidenceCartographer.Concurrency.Program
import Mathlib.Logic.Function.Basic
import Mathlib.Logic.Relation

/-! Any number of programs over one shared state, and the rule that proves them one at a time.

    Each step of a system is one operation of one program, or a move of the environment. A party is
    verified alone: between two of its own operations the others may do anything its `rely` allows,
    and `Safe` asks that its invariant hold after every operation of its own and its postcondition
    when it ends. `Reachable.safe` is the one induction over interleavings: what is safe for a party
    at the start holds of it in every reachable configuration, whatever the other parties run. -/

namespace EvidenceCartographer.Concurrency

/-- Parties `ι` over a shared state `σ`: what the environment does, what an operation does, and what
    a party may rely on while the others move. -/
structure System (ι : Type) (S : Signature) (σ : Type) where
  env : σ → σ → Prop
  exec : ι → (o : S.Op) → σ → S.Reply o → σ → Prop
  rely : ι → σ → σ → Prop
  rely_refl : ∀ i s, rely i s s
  rely_trans : ∀ i s₁ s₂ s₃, rely i s₁ s₂ → rely i s₂ s₃ → rely i s₁ s₃
  env_rely : ∀ i s s', env s s' → rely i s s'
  exec_rely : ∀ i j o s r s', j ≠ i → exec i o s r s' → rely j s s'

/-- The shared state and what each party has left to run. -/
structure Config (ι : Type) (S : Signature) (σ ε α : Type) where
  shared : σ
  procs : ι → Program S ε α

variable {ι σ ε α β : Type} {S : Signature}

namespace System

variable (sys : System ι S σ)

/-- One move of the environment, or one operation of one party. A party that aborts takes no
    further step, so every abort point is among the reachable configurations. -/
inductive Step [DecidableEq ι] : Config ι S σ ε α → Config ι S σ ε α → Prop where
  | env {s s' procs} : sys.env s s' → Step ⟨s, procs⟩ ⟨s', procs⟩
  | run {s s' procs} (i : ι) {o : S.Op} {k : S.Reply o → Program S ε α} (r : S.Reply o) :
      procs i = .call o k → sys.exec i o s r s' →
        Step ⟨s, procs⟩ ⟨s', Function.update procs i (k r)⟩

/-- Any number of steps, in any order. -/
def Reachable [DecidableEq ι] : Config ι S σ ε α → Config ι S σ ε α → Prop :=
  Relation.ReflTransGen sys.Step

variable {sys}

/-- A run goes on with an operation of party `i`. -/
theorem Reachable.run [DecidableEq ι] {c : Config ι S σ ε α} {s s' : σ}
    {procs : ι → Program S ε α} (hr : sys.Reachable c ⟨s, procs⟩) (i : ι) {o : S.Op}
    {k : S.Reply o → Program S ε α} (hp : procs i = .call o k) {r : S.Reply o}
    (hx : sys.exec i o s r s') : sys.Reachable c ⟨s', Function.update procs i (k r)⟩ :=
  hr.tail (.run i r hp hx)

/-- A run goes on with a move of the environment. -/
theorem Reachable.env [DecidableEq ι] {c : Config ι S σ ε α} {s s' : σ}
    {procs : ι → Program S ε α} (hr : sys.Reachable c ⟨s, procs⟩) (he : sys.env s s') :
    sys.Reachable c ⟨s', procs⟩ :=
  hr.tail (.env he)

variable (sys)

/-- Party `i` running `p` from `s`: after each operation of its own `J` holds, and `Q` holds of its
    outcome at the moment it ends, whatever the others do in between. -/
def Safe (i : ι) (J : σ → Prop) :
    Program S ε α → (Except ε α → σ → Prop) → σ → Prop
  | .ret a, Q, s => Q (.ok a) s
  | .raise e, Q, s => Q (.error e) s
  | .call o k, Q, s => ∀ s₁, sys.rely i s s₁ → ∀ r s₂, sys.exec i o s₁ r s₂ →
      J s₂ ∧ Safe i J (k r) Q s₂

variable {sys} {i : ι} {J : σ → Prop} {s s' : σ}

@[simp] theorem safe_ret {a : α} {Q : Except ε α → σ → Prop} :
    sys.Safe i J (.ret a : Program S ε α) Q s ↔ Q (.ok a) s := Iff.rfl

@[simp] theorem safe_raise {e : ε} {Q : Except ε α → σ → Prop} :
    sys.Safe i J (.raise e : Program S ε α) Q s ↔ Q (.error e) s := Iff.rfl

/-- The verification condition of one call. -/
theorem safe_perform {o : S.Op} {Q : Except ε (S.Reply o) → σ → Prop}
    (h : ∀ s₁, sys.rely i s s₁ → ∀ r s₂, sys.exec i o s₁ r s₂ → J s₂ ∧ Q (.ok r) s₂) :
    sys.Safe i J (.perform o : Program S ε _) Q s := h

theorem safe_ofExcept {x : Except ε α} {Q : Except ε α → σ → Prop} :
    sys.Safe i J (.ofExcept x) Q s ↔ Q x s := by
  cases x <;> exact Iff.rfl

/-- A call whose reply says whether it raised. -/
theorem safe_reply {o : S.Op} {f : S.Reply o → Except ε α} {Q : Except ε α → σ → Prop}
    (h : ∀ s₁, sys.rely i s s₁ → ∀ r s₂, sys.exec i o s₁ r s₂ → J s₂ ∧ Q (f r) s₂) :
    sys.Safe i J (.call o fun r => .ofExcept (f r)) Q s :=
  fun s₁ hr r s₂ hx => ⟨(h s₁ hr r s₂ hx).1, safe_ofExcept.mpr (h s₁ hr r s₂ hx).2⟩

/-- A weaker postcondition. -/
theorem Safe.mono {p : Program S ε α} {Q Q' : Except ε α → σ → Prop}
    (h : sys.Safe i J p Q s) (hQ : ∀ r s, Q r s → Q' r s) : sys.Safe i J p Q' s := by
  induction p generalizing s with
  | ret a => exact hQ _ _ h
  | raise e => exact hQ _ _ h
  | call o k ih =>
    intro s₁ hr r s₂ hx
    exact ⟨(h s₁ hr r s₂ hx).1, ih r (h s₁ hr r s₂ hx).2⟩

/-- A weaker invariant. -/
theorem Safe.weaken {p : Program S ε α} {J' : σ → Prop} {Q : Except ε α → σ → Prop}
    (h : sys.Safe i J p Q s) (hJ : ∀ s, J s → J' s) : sys.Safe i J' p Q s := by
  induction p generalizing s with
  | ret a => exact h
  | raise e => exact h
  | call o k ih =>
    intro s₁ hr r s₂ hx
    exact ⟨hJ _ (h s₁ hr r s₂ hx).1, ih r (h s₁ hr r s₂ hx).2⟩

/-- Nothing is asked of the program. -/
theorem safe_true {p : Program S ε α} : sys.Safe i (fun _ => True) p (fun _ _ => True) s := by
  induction p generalizing s with
  | ret a => trivial
  | raise e => trivial
  | call o k ih => exact fun s₁ _ r s₂ _ => ⟨trivial, ih r⟩

/-- Sequencing: the second program starts where the first returned. -/
theorem Safe.bind {p : Program S ε α} {f : α → Program S ε β} {Q : Except ε β → σ → Prop}
    (h : sys.Safe i J p (fun r s => match r with
      | .ok a => sys.Safe i J (f a) Q s
      | .error e => Q (.error e) s) s) : sys.Safe i J (p.bind f) Q s := by
  induction p generalizing s with
  | ret a => exact h
  | raise e => exact h
  | call o k ih =>
    intro s₁ hr r s₂ hx
    exact ⟨(h s₁ hr r s₂ hx).1, ih r (h s₁ hr r s₂ hx).2⟩

/-- Handling: the handler starts where the first program raised. -/
theorem Safe.handle {p : Program S ε α} {f : ε → Program S ε α} {Q : Except ε α → σ → Prop}
    (h : sys.Safe i J p (fun r s => match r with
      | .ok a => Q (.ok a) s
      | .error e => sys.Safe i J (f e) Q s) s) : sys.Safe i J (p.handle f) Q s := by
  induction p generalizing s with
  | ret a => exact h
  | raise e => exact h
  | call o k ih =>
    intro s₁ hr r s₂ hx
    exact ⟨(h s₁ hr r s₂ hx).1, ih r (h s₁ hr r s₂ hx).2⟩

theorem Safe.attempt {p : Program S ε α} {Q : Except ε (Except ε α) → σ → Prop}
    (h : sys.Safe i J p (fun r => Q (.ok r)) s) : sys.Safe i J p.attempt Q s := by
  induction p generalizing s with
  | ret a => exact h
  | raise e => exact h
  | call o k ih =>
    intro s₁ hr r s₂ hx
    exact ⟨(h s₁ hr r s₂ hx).1, ih r (h s₁ hr r s₂ hx).2⟩

/-- Cleaning up: it starts where the first program ended, however that was. -/
theorem Safe.ensuring {p : Program S ε α} {cleanup : Program S ε Unit} {Q : Except ε α → σ → Prop}
    (h : sys.Safe i J p (fun r s => sys.Safe i J cleanup (fun r' s' => match r' with
      | .ok _ => Q r s'
      | .error e => Q (.error e) s') s) s) : sys.Safe i J (p.ensuring cleanup) Q s := by
  refine .bind (.attempt (h.mono fun r s' hcleanup => ?_))
  refine .bind (hcleanup.mono ?_)
  rintro (e | ⟨⟨⟩⟩) s'' hQ
  · exact hQ
  · cases r <;> exact hQ

/-- A program that is still running does not mind what the others do. -/
theorem Safe.stable {p : Program S ε α} {Q : Except ε α → σ → Prop} (h : sys.Safe i J p Q s)
    (hlive : p.outcome = none) (hr : sys.rely i s s') : sys.Safe i J p Q s' := by
  cases p with
  | ret a => simp [Program.outcome] at hlive
  | raise e => simp [Program.outcome] at hlive
  | call o k => exact fun s₁ hr₁ => h s₁ (sys.rely_trans _ _ _ _ hr hr₁)

/-- What `Safe` keeps of a party along a run: its invariant, its remaining obligations while it
    runs, and its postcondition since the moment it ended. -/
structure Guarded (sys : System ι S σ) (i : ι) (J : σ → Prop) (Q : Except ε α → σ → Prop)
    (c : Config ι S σ ε α) : Prop where
  inv : J c.shared
  live : (c.procs i).outcome = none → sys.Safe i J (c.procs i) Q c.shared
  done : ∀ r, (c.procs i).outcome = some r → ∃ s, Q r s ∧ sys.rely i s c.shared

theorem Guarded.of_safe {Q : Except ε α → σ → Prop} {c : Config ι S σ ε α} (hJ : J c.shared)
    (h : sys.Safe i J (c.procs i) Q c.shared) : Guarded sys i J Q c := by
  refine ⟨hJ, fun _ => h, fun r hr => ⟨c.shared, ?_, sys.rely_refl _ _⟩⟩
  cases hp : c.procs i with
  | ret a => rw [hp] at h hr; cases hr; exact h
  | raise e => rw [hp] at h hr; cases hr; exact h
  | call o k => rw [hp] at hr; cases hr

variable {c c' : Config ι S σ ε α} {Q : Except ε α → σ → Prop}

/-- A postcondition that the others cannot break holds of every ended party, then and later. -/
theorem Guarded.post (h : Guarded sys i J Q c) {r : Except ε α}
    (hQ : ∀ s s', sys.rely i s s' → Q r s → Q r s') (ho : (c.procs i).outcome = some r) :
    Q r c.shared := by
  obtain ⟨s, hs, hr⟩ := h.done r ho
  exact hQ _ _ hr hs

variable [DecidableEq ι]

/-- Every step keeps a party guarded: its own by `Safe`, anybody else's by its rely. -/
theorem Guarded.step (hJ : ∀ s s', sys.rely i s s' → J s → J s')
    (h : Guarded sys i J Q c) (hs : sys.Step c c') : Guarded sys i J Q c' := by
  have other : ∀ {s' procs}, sys.rely i c.shared s' → procs i = c.procs i →
      Guarded sys i J Q ⟨s', procs⟩ := by
    intro s' procs hr hp
    refine ⟨hJ _ _ hr h.inv, fun hl => ?_, fun r ho => ?_⟩
    · simp only [hp] at hl ⊢; exact (h.live hl).stable hl hr
    · simp only [hp] at ho
      obtain ⟨s, hQ, hs⟩ := h.done r ho
      exact ⟨s, hQ, sys.rely_trans _ _ _ _ hs hr⟩
  cases hs with
  | env he => exact other (sys.env_rely _ _ _ he) rfl
  | @run s s' procs j o k r hp hx =>
    by_cases hij : i = j
    · subst hij
      have hl : (procs i).outcome = none := by rw [hp]; rfl
      have hsafe := h.live hl
      simp only [hp] at hsafe
      obtain ⟨hJ', hnext⟩ := hsafe s (sys.rely_refl _ _) r s' hx
      exact .of_safe hJ' (by simpa using hnext)
    · exact other (sys.exec_rely _ _ _ _ _ _ hij hx) (Function.update_of_ne hij _ _)

/-- The rule for a whole run. -/
theorem Reachable.guarded (hJ : ∀ s s', sys.rely i s s' → J s → J s') (hr : sys.Reachable c c')
    (h : Guarded sys i J Q c) : Guarded sys i J Q c' := by
  induction hr with
  | refl => exact h
  | tail _ hs ih => exact ih.step hJ hs

theorem Reachable.safe (hJ : ∀ s s', sys.rely i s s' → J s → J s') (h0 : J c.shared)
    (h : sys.Safe i J (c.procs i) Q c.shared) (hr : sys.Reachable c c') : Guarded sys i J Q c' :=
  hr.guarded hJ (.of_safe h0 h)

/-- The same for a party that is still at the start of its program. -/
theorem Reachable.started {p : Program S ε α} {procs : ι → Program S ε α}
    (hr : sys.Reachable ⟨s, procs⟩ c') (hp : procs i = p)
    (hJ : ∀ s s', sys.rely i s s' → J s → J s') (h0 : J s) (h : sys.Safe i J p Q s) :
    Guarded sys i J Q c' :=
  hr.safe hJ h0 (by simpa only [hp] using h)

/-- A property of the shared state that every step keeps holds after every run. -/
theorem Reachable.shared (I : σ → Prop) (henv : ∀ s s', sys.env s s' → I s → I s')
    (hexec : ∀ i o s r s', sys.exec i o s r s' → I s → I s') (hr : sys.Reachable c c')
    (h : I c.shared) : I c'.shared := by
  induction hr with
  | refl => exact h
  | tail _ hs ih =>
    cases hs with
    | env he => exact henv _ _ he ih
    | run j r hp hx => exact hexec _ _ _ _ _ hx ih

end System

end EvidenceCartographer.Concurrency
