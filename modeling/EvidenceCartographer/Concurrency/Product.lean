import EvidenceCartographer.Concurrency.Run

/-! Programs over two environments at once.

    A program over one signature is a program over its sum with any other, and two systems with the
    same parties make one over both states, in which each environment moves on its own. What a party
    is safe to do in one of them it is safe to do in the product, and what it can run there it can run
    here; of the other state it can then be said that it moved as the party's rely allows. -/

namespace EvidenceCartographer.Concurrency

variable {ι σ τ ε α : Type} {S T : Signature}

/-- The operations of both. -/
abbrev Signature.sum (S T : Signature) : Signature where
  Op := S.Op ⊕ T.Op
  Reply
    | .inl o => S.Reply o
    | .inr o => T.Reply o

namespace Program

/-- A program that calls the first environment only. -/
def inl : Program S ε α → Program (S.sum T) ε α
  | .ret a => .ret a
  | .raise e => .raise e
  | .call o k => .call (Sum.inl o) fun r => (k r).inl

/-- A program that calls the second environment only. -/
def inr : Program T ε α → Program (S.sum T) ε α
  | .ret a => .ret a
  | .raise e => .raise e
  | .call o k => .call (Sum.inr o) fun r => (k r).inr

end Program

namespace System

/-- Both systems, side by side. -/
def prod (sys₁ : System ι S σ) (sys₂ : System ι T τ) : System ι (S.sum T) (σ × τ) where
  env x x' := (sys₁.env x.1 x'.1 ∧ x'.2 = x.2) ∨ (sys₂.env x.2 x'.2 ∧ x'.1 = x.1)
  exec i o x r x' := match o, r with
    | .inl o, r => sys₁.exec i o x.1 r x'.1 ∧ x'.2 = x.2
    | .inr o, r => sys₂.exec i o x.2 r x'.2 ∧ x'.1 = x.1
  rely i x x' := sys₁.rely i x.1 x'.1 ∧ sys₂.rely i x.2 x'.2
  rely_refl i x := ⟨sys₁.rely_refl i x.1, sys₂.rely_refl i x.2⟩
  rely_trans i x₁ x₂ x₃ h h' :=
    ⟨sys₁.rely_trans i _ _ _ h.1 h'.1, sys₂.rely_trans i _ _ _ h.2 h'.2⟩
  env_rely i x x' h := by
    rcases h with ⟨henv, heq⟩ | ⟨henv, heq⟩
    · exact ⟨sys₁.env_rely i _ _ henv, heq ▸ sys₂.rely_refl i _⟩
    · exact ⟨heq ▸ sys₁.rely_refl i _, sys₂.env_rely i _ _ henv⟩
  exec_rely i j o x r x' hne h := by
    rcases o with o | o
    · exact ⟨sys₁.exec_rely i j _ _ _ _ hne h.1, h.2 ▸ sys₂.rely_refl j _⟩
    · exact ⟨h.2 ▸ sys₁.rely_refl j _, sys₂.exec_rely i j _ _ _ _ hne h.1⟩

variable {sys₁ : System ι S σ} {sys₂ : System ι T τ} {i : ι} {s s' : σ} {t t' : τ}

theorem Safe.inl {p : Program S ε α} {J : σ → Prop} {Q : Except ε α → σ → Prop}
    (h : sys₁.Safe i J p Q s) : (sys₁.prod sys₂).Safe i (fun x => J x.1) p.inl
      (fun r x => Q r x.1 ∧ sys₂.rely i t x.2) (s, t) := by
  induction p generalizing s t with
  | ret a => exact ⟨h, sys₂.rely_refl i t⟩
  | raise e => exact ⟨h, sys₂.rely_refl i t⟩
  | call o k ih =>
    rintro x hr r x' ⟨hx, heq⟩
    obtain ⟨hJ, hnext⟩ := h x.1 hr.1 r x'.1 hx
    refine ⟨hJ, (ih r (t := x'.2) hnext).mono ?_⟩
    rintro r' x'' ⟨hQ, hr'⟩
    rw [heq] at hr'
    exact ⟨hQ, sys₂.rely_trans i _ _ _ hr.2 hr'⟩

theorem Safe.inr {p : Program T ε α} {J : τ → Prop} {Q : Except ε α → τ → Prop}
    (h : sys₂.Safe i J p Q t) : (sys₁.prod sys₂).Safe i (fun x => J x.2) p.inr
      (fun r x => Q r x.2 ∧ sys₁.rely i s x.1) (s, t) := by
  induction p generalizing s t with
  | ret a => exact ⟨h, sys₁.rely_refl i s⟩
  | raise e => exact ⟨h, sys₁.rely_refl i s⟩
  | call o k ih =>
    rintro x hr r x' ⟨hx, heq⟩
    obtain ⟨hJ, hnext⟩ := h x.2 hr.2 r x'.2 hx
    refine ⟨hJ, (ih r (s := x'.1) hnext).mono ?_⟩
    rintro r' x'' ⟨hQ, hr'⟩
    rw [heq] at hr'
    exact ⟨hQ, sys₁.rely_trans i _ _ _ hr.1 hr'⟩

/-- What the other parties cannot break of the second state, a program over the first keeps. -/
theorem Safe.inl_keeps {P : τ → Prop} (hP : ∀ t t', sys₂.rely i t t' → P t → P t')
    (p : Program S ε α) (ht : P t) : (sys₁.prod sys₂).Safe i (fun x => P x.2) p.inl
      (fun _ x => P x.2) (s, t) := by
  induction p generalizing s t with
  | ret a => exact ht
  | raise e => exact ht
  | call o k ih =>
    rintro x hr r x' ⟨-, heq⟩
    have ht' : P x'.2 := by
      rw [heq]
      exact hP _ _ hr.2 ht
    exact ⟨ht', ih r ht'⟩

theorem Runs.inl {p : Program S ε α} {r : Except ε α} (h : sys₁.Runs i p s r s') (t : τ) :
    (sys₁.prod sys₂).Runs i p.inl (s, t) r (s', t) := by
  induction h with
  | ret a s => exact .ret _ _
  | raise e s => exact .raise _ _
  | @env p s s' r s'' he _ ih =>
    have hmove : (sys₁.prod sys₂).env (s, t) (s', t) := .inl ⟨he, rfl⟩
    exact .env hmove ih
  | @call o k s x s' r s'' hexec _ ih =>
    have hmove : (sys₁.prod sys₂).exec i (Sum.inl o) (s, t) x (s', t) := ⟨hexec, rfl⟩
    exact .call hmove ih

theorem Runs.inr {p : Program T ε α} {r : Except ε α} (s : σ) (h : sys₂.Runs i p t r t') :
    (sys₁.prod sys₂).Runs i p.inr (s, t) r (s, t') := by
  induction h with
  | ret a t => exact .ret _ _
  | raise e t => exact .raise _ _
  | @env p t t' r t'' he _ ih =>
    have hmove : (sys₁.prod sys₂).env (s, t) (s, t') := .inr ⟨he, rfl⟩
    exact .env hmove ih
  | @call o k t x t' r t'' hexec _ ih =>
    have hmove : (sys₁.prod sys₂).exec i (Sum.inr o) (s, t) x (s, t') := ⟨hexec, rfl⟩
    exact .call hmove ih

end System

end EvidenceCartographer.Concurrency
