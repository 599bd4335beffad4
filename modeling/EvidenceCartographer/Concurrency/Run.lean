import EvidenceCartographer.Concurrency.System

/-! Runs of one program while the other parties stand still.

    `Runs` is what a program can do from some state, its environment moving in between, and how it can
    end. Runs of the parts of a program compose to runs of the whole. `Reaches` stops anywhere on the
    way, with a program left to run, so that another party can move there; either is a run of the
    system in which only that party moves. -/

namespace EvidenceCartographer.Concurrency

namespace System

variable {ι σ ε α β : Type} {S : Signature}

/-- Party `i` can run `p` from the first state to the second, and `p` then ends in `r`. -/
inductive Runs (sys : System ι S σ) (i : ι) :
    Program S ε α → σ → Except ε α → σ → Prop where
  | ret (a s) : Runs sys i (.ret a) s (.ok a) s
  | raise (e s) : Runs sys i (.raise e) s (.error e) s
  | env {p s s' s'' r} : sys.env s s' → Runs sys i p s' r s'' → Runs sys i p s r s''
  | call {o k s x s' r s''} : sys.exec i o s x s' → Runs sys i (k x) s' r s'' →
      Runs sys i (.call o k) s r s''

variable {sys : System ι S σ} {i : ι} {s s₁ s₂ : σ}

theorem Runs.ofExcept (x : Except ε α) (s : σ) : sys.Runs i (.ofExcept x) s x s := by
  cases x with
  | error e => exact .raise e s
  | ok a => exact .ret a s

theorem Runs.bind {p : Program S ε α} {f : α → Program S ε β} {a : α} {r : Except ε β}
    (h : sys.Runs i p s (.ok a) s₁) (h' : sys.Runs i (f a) s₁ r s₂) :
    sys.Runs i (p.bind f) s r s₂ := by
  generalize hx : (.ok a : Except ε α) = x at h
  induction h with
  | ret b s => cases hx; exact h'
  | raise e s => cases hx
  | env he _ ih => exact .env he (ih h' hx)
  | call hexec _ ih => exact .call hexec (ih h' hx)

theorem Runs.bind_ok {x : Except ε α} {a : α} {f : α → Program S ε β} {r : Except ε β}
    (hx : x = .ok a) (h : sys.Runs i (f a) s r s₁) :
    sys.Runs i ((Program.ofExcept x).bind f) s r s₁ := by
  subst hx
  exact h

theorem Runs.bind_error {p : Program S ε α} {f : α → Program S ε β} {e : ε}
    (h : sys.Runs i p s (.error e) s₁) : sys.Runs i (p.bind f) s (.error e) s₁ := by
  generalize hx : (.error e : Except ε α) = x at h
  induction h with
  | ret b s => cases hx
  | raise e s => cases hx; exact .raise _ s
  | env he _ ih => exact .env he (ih hx)
  | call hexec _ ih => exact .call hexec (ih hx)

theorem Runs.handle {p : Program S ε α} {f : ε → Program S ε α} {e : ε} {r : Except ε α}
    (h : sys.Runs i p s (.error e) s₁) (h' : sys.Runs i (f e) s₁ r s₂) :
    sys.Runs i (p.handle f) s r s₂ := by
  generalize hx : (.error e : Except ε α) = x at h
  induction h with
  | ret b s => cases hx
  | raise e s => cases hx; exact h'
  | env he _ ih => exact .env he (ih h' hx)
  | call hexec _ ih => exact .call hexec (ih h' hx)

theorem Runs.handle_ok {p : Program S ε α} {f : ε → Program S ε α} {a : α}
    (h : sys.Runs i p s (.ok a) s₁) : sys.Runs i (p.handle f) s (.ok a) s₁ := by
  generalize hx : (.ok a : Except ε α) = x at h
  induction h with
  | ret b s => cases hx; exact .ret _ s
  | raise e s => cases hx
  | env he _ ih => exact .env he (ih hx)
  | call hexec _ ih => exact .call hexec (ih hx)

theorem Runs.attempt {p : Program S ε α} {r : Except ε α} (h : sys.Runs i p s r s₁) :
    sys.Runs i (p.attempt : Program S ε (Except ε α)) s (.ok r) s₁ := by
  induction h with
  | ret a s => exact .ret _ s
  | raise e s => exact .ret _ s
  | env he _ ih => exact .env he ih
  | call hexec _ ih => exact .call hexec ih

theorem Runs.ensuring {p : Program S ε α} {cleanup : Program S ε Unit} {r : Except ε α}
    (h : sys.Runs i p s r s₁) (h' : sys.Runs i cleanup s₁ (.ok ()) s₂) :
    sys.Runs i (p.ensuring cleanup) s r s₂ := by
  refine .bind h.attempt (.bind h' ?_)
  cases r with
  | ok a => exact .ret _ _
  | error e => exact .raise _ _

/-- A run in one system is a run of a party of another system, in the states that stand for its own. -/
theorem Runs.embed {κ τ : Type} {sys' : System κ S τ} {k : κ} {p : Program S ε α} {r : Except ε α}
    (h : sys.Runs i p s r s₁) (put : σ → τ)
    (henv : ∀ s s', sys.env s s' → sys'.env (put s) (put s'))
    (hexec : ∀ o s x s', sys.exec i o s x s' → sys'.exec k o (put s) x (put s')) :
    sys'.Runs k p (put s) r (put s₁) := by
  induction h with
  | ret a s => exact .ret a _
  | raise e s => exact .raise e _
  | env he _ ih => exact .env (henv _ _ he) ih
  | call hx _ ih => exact .call (hexec _ _ _ _ hx) ih

/-- Party `i` can run `p` from the first state to the second, and `q` is then what is left of it. -/
inductive Reaches (sys : System ι S σ) (i : ι) :
    Program S ε α → σ → Program S ε α → σ → Prop where
  | refl (p s) : Reaches sys i p s p s
  | env {p q s s' s''} : sys.env s s' → Reaches sys i p s' q s'' → Reaches sys i p s q s''
  | call {o k q s x s' s''} : sys.exec i o s x s' → Reaches sys i (k x) s' q s'' →
      Reaches sys i (.call o k) s q s''

theorem Runs.reaches {p : Program S ε α} {r : Except ε α} (h : sys.Runs i p s r s₁) :
    sys.Reaches i p s (.ofExcept r) s₁ := by
  induction h with
  | ret a s => exact .refl _ s
  | raise e s => exact .refl _ s
  | env he _ ih => exact .env he ih
  | call hexec _ ih => exact .call hexec ih

/-- A first part moves on with what follows it left as it is. -/
theorem Reaches.bind {p q : Program S ε α} (h : sys.Reaches i p s q s₁) (f : α → Program S ε β) :
    sys.Reaches i (p.bind f) s (q.bind f) s₁ := by
  induction h with
  | refl p s => exact .refl _ s
  | env he _ ih => exact .env he ih
  | call hexec _ ih => exact .call hexec ih

theorem Reaches.handle {p q : Program S ε α} (h : sys.Reaches i p s q s₁)
    (f : ε → Program S ε α) : sys.Reaches i (p.handle f) s (q.handle f) s₁ := by
  induction h with
  | refl p s => exact .refl _ s
  | env he _ ih => exact .env he ih
  | call hexec _ ih => exact .call hexec ih

theorem Reaches.ensuring {p q : Program S ε α} (h : sys.Reaches i p s q s₁)
    (cleanup : Program S ε Unit) : sys.Reaches i (p.ensuring cleanup) s (q.ensuring cleanup) s₁ := by
  refine Reaches.bind ?_ _
  induction h with
  | refl p s => exact .refl _ s
  | env he _ ih => exact .env he ih
  | call hexec _ ih => exact .call hexec ih

/-- What is left can be run on. -/
theorem Reaches.runs {p q : Program S ε α} {r : Except ε α} (h : sys.Reaches i p s q s₁)
    (h' : sys.Runs i q s₁ r s₂) : sys.Runs i p s r s₂ := by
  induction h with
  | refl p s => exact h'
  | env he _ ih => exact .env he (ih h')
  | call hexec _ ih => exact .call hexec (ih h')

/-- A first part that returns is passed. -/
theorem Reaches.bind_runs {p : Program S ε α} {f : α → Program S ε β} {q : Program S ε β} {a : α}
    (h : sys.Runs i p s (.ok a) s₁) (h' : sys.Reaches i (f a) s₁ q s₂) :
    sys.Reaches i (p.bind f) s q s₂ := by
  generalize hx : (.ok a : Except ε α) = x at h
  induction h with
  | ret b s => cases hx; exact h'
  | raise e s => cases hx
  | env he _ ih => exact .env he (ih h' hx)
  | call hexec _ ih => exact .call hexec (ih h' hx)

theorem Reaches.bind_ok {x : Except ε α} {a : α} {f : α → Program S ε β} {q : Program S ε β}
    (hx : x = .ok a) (h : sys.Reaches i (f a) s q s₁) :
    sys.Reaches i ((Program.ofExcept x).bind f) s q s₁ := by
  subst hx
  exact h

/-- For another party a part of a run is within its rely. -/
theorem Reaches.rely {p q : Program S ε α} (h : sys.Reaches i p s q s₁) {j : ι} (hij : j ≠ i) :
    sys.rely j s s₁ := by
  induction h with
  | refl p s => exact sys.rely_refl j s
  | env he _ ih => exact sys.rely_trans j _ _ _ (sys.env_rely j _ _ he) ih
  | call hexec _ ih => exact sys.rely_trans j _ _ _ (sys.exec_rely _ _ _ _ _ _ hij hexec) ih

/-- A part of a run of one party is a run of the system. -/
theorem Reaches.reachable [DecidableEq ι] {p q : Program S ε α} (h : sys.Reaches i p s q s₁)
    {c : Config ι S σ ε α} {procs : ι → Program S ε α} (hp : procs i = p)
    (hr : sys.Reachable c ⟨s, procs⟩) : sys.Reachable c ⟨s₁, Function.update procs i q⟩ := by
  induction h generalizing procs with
  | refl p s =>
    rw [← hp, Function.update_eq_self]
    exact hr
  | env he _ ih => exact ih hp (hr.env he)
  | call hexec _ ih =>
    have := ih (Function.update_self ..) (hr.run i hp hexec)
    rwa [Function.update_idem] at this

/-- For another party a run is within its rely. -/
theorem Runs.rely {p : Program S ε α} {r : Except ε α} (h : sys.Runs i p s r s₁) {j : ι}
    (hij : j ≠ i) : sys.rely j s s₁ :=
  h.reaches.rely hij

/-- A run of one party is a run of the system. -/
theorem Runs.reachable [DecidableEq ι] {p : Program S ε α} {r : Except ε α}
    (h : sys.Runs i p s r s₁) {c : Config ι S σ ε α} {procs : ι → Program S ε α}
    (hp : procs i = p) (hr : sys.Reachable c ⟨s, procs⟩) :
    sys.Reachable c ⟨s₁, Function.update procs i (.ofExcept r)⟩ :=
  h.reaches.reachable hp hr

/-- One party comes to `q`, another runs to its end, and then the first does. -/
theorem Reaches.interleaved [DecidableEq ι] {j : ι} (hij : i ≠ j) {procs : ι → Program S ε α}
    {q : Program S ε α} {a b : α} {s₃ : σ} (h₁ : sys.Reaches i (procs i) s q s₁)
    (h₂ : sys.Runs j (procs j) s₁ (.ok b) s₂) (h₃ : sys.Runs i q s₂ (.ok a) s₃) :
    ∃ procs', sys.Reachable ⟨s, procs⟩ ⟨s₃, procs'⟩ ∧ procs' i = .ret a ∧ procs' j = .ret b := by
  have hr₁ := h₁.reachable rfl .refl
  have hr₂ := h₂.reachable (Function.update_of_ne hij.symm ..) hr₁
  have hq : Function.update (Function.update procs i q) j (.ofExcept (.ok b)) i = q := by
    rw [Function.update_of_ne hij, Function.update_self]
  refine ⟨_, h₃.reachable hq hr₂, Function.update_self .., ?_⟩
  rw [Function.update_of_ne hij.symm, Function.update_self]
  rfl

end System

end EvidenceCartographer.Concurrency
