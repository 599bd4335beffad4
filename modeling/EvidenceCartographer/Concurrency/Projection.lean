import EvidenceCartographer.Concurrency.Product
import EvidenceCartographer.Concurrency.Trace

/-! Runs of a product, seen from its second component.

    A program over two environments follows a program over the second one when its calls there are the
    calls of that program, in order. It leads to a family of programs when it calls the second
    environment only by following one of them; which one it will be is up to what it is answered
    before, so it is told by a beginning of what the party has done. `Reachable.project` is the one
    induction: a run of any number of such programs, with what they do in the first environment left
    out, is a run of the programs they follow. -/

namespace EvidenceCartographer.Concurrency

variable {ι σ τ ε α β γ κ : Type} {S T : Signature}

namespace Program

/-- The calls of a program to the second environment are those of `q`, and it returns after `q` does,
    with a related result. It may raise at any time. -/
def Follows (R : α → β → Prop) : Program (S.sum T) ε α → Program T ε β → Prop
  | .ret a, q => ∃ b, q = .ret b ∧ R a b
  | .raise _, _ => True
  | .call (.inl _) k, q => ∀ x, (k x).Follows R q
  | .call (.inr o) k, q => ∃ k', q = .call o k' ∧ ∀ x, (k x).Follows R (k' x)

variable {R : α → β → Prop}

theorem Follows.bind_inl {p : Program S ε γ} {f : γ → Program (S.sum T) ε α} {q : Program T ε β}
    (h : ∀ c, (f c).Follows R q) : ((p.inl : Program (S.sum T) ε γ).bind f).Follows R q := by
  induction p with
  | ret c => exact h c
  | raise e => trivial
  | call o k ih => exact fun x => ih x

/-- What comes after `q` makes no call of its own there. -/
theorem Follows.bind_inr {q : Program T ε β} {f : β → Program (S.sum T) ε α}
    (h : ∀ b, (f b).Follows R (.ret b)) : ((q.inr : Program (S.sum T) ε β).bind f).Follows R q := by
  induction q with
  | ret b => exact h b
  | raise e => trivial
  | call o k ih => exact ⟨k, rfl, fun x => ih x⟩

/-- The cleanup is not seen. -/
theorem Follows.ensuring {p : Program (S.sum T) ε α} {q : Program T ε β} (h : p.Follows R q)
    (cleanup : Program S ε Unit) : (p.ensuring cleanup.inl).Follows R q := by
  induction p generalizing q with
  | ret a => exact .bind_inl fun _ => h
  | raise e => exact .bind_inl fun _ => trivial
  | call o k ih =>
    rcases o with o | o
    · exact fun x => ih x (h x)
    · obtain ⟨k', rfl, hnext⟩ := h
      exact ⟨k', rfl, fun x => ih x (hnext x)⟩

/-- The program, after these calls to the first environment, calls the second one only by following
    one of `prog`, which is one that `P` allows after a beginning of the calls. -/
inductive Leads (P : List S.Event → κ → Prop) (prog : κ → Program T ε β) (R : κ → α → β → Prop) :
    List S.Event → Program (S.sum T) ε α → Prop where
  | follows {before past p} (c : κ) : past <+: before → P past c → p.Follows (R c) (prog c) →
      Leads P prog R before p
  | raise {before} (e) : Leads P prog R before (.raise e)
  | unseen {before o k} : (∀ x, Leads P prog R (before ++ [⟨o, x⟩]) (k x)) →
      Leads P prog R before (.call (Sum.inl o) k)

/-- What a party has done begins with what `P` allows `c` after. -/
def Begins (P : List S.Event → κ → Prop) (events : List (S.sum T).Event) (c : κ) : Prop :=
  ∃ past after, events = past.map inlEvent ++ after ∧ P past c

variable {P : List S.Event → κ → Prop} {prog : κ → Program T ε β} {R : κ → α → β → Prop}
  {before : List S.Event}

theorem Begins.append {events : List (S.sum T).Event} {c : κ} (h : Begins P events c)
    (more : List (S.sum T).Event) : Begins P (events ++ more) c := by
  obtain ⟨past, after, rfl, hc⟩ := h
  exact ⟨past, after ++ more, List.append_assoc .., hc⟩

theorem begins_of_prefix {past : List S.Event} {c : κ} (h : past <+: before) (hc : P past c) :
    Begins P (before.map inlEvent : List (S.sum T).Event) c := by
  obtain ⟨after, rfl⟩ := h
  exact ⟨past, after.map inlEvent, List.map_append, hc⟩

/-- A first part that is not seen may have returned any value that one of its traces ends in. -/
theorem Leads.bind_inl {p : Program S ε γ} {f : γ → Program (S.sum T) ε α}
    (h : ∀ events c, p.Trace events (.ok c) → (f c).Leads P prog R (before ++ events)) :
    ((p.inl : Program (S.sum T) ε γ).bind f).Leads P prog R before := by
  induction p generalizing before with
  | ret c =>
    have hnone := h [] c ⟨rfl, rfl⟩
    rwa [List.append_nil] at hnone
  | raise e => exact .raise e
  | call o k ih =>
    refine .unseen fun x => ih x fun events c htrace => ?_
    rw [List.append_assoc]
    exact h _ c htrace.call

theorem Leads.bind_ofExcept {x : Except ε γ} {f : γ → Program (S.sum T) ε α}
    (h : ∀ c, x = .ok c → (f c).Leads P prog R before) :
    ((ofExcept x).bind f).Leads P prog R before := by
  cases x with
  | ok c => exact h c rfl
  | error e => exact .raise e

theorem Leads.ensuring {p : Program (S.sum T) ε α} (h : p.Leads P prog R before)
    (cleanup : Program S ε Unit) : (p.ensuring cleanup.inl).Leads P prog R before := by
  induction h with
  | follows c hpast hc hfollows => exact .follows c hpast hc (hfollows.ensuring cleanup)
  | raise e => exact .bind_inl fun _ _ _ => .raise e
  | unseen _ ih => exact .unseen fun x => ih x

/-- A program that has returned has followed one of them to its end. -/
theorem Leads.ret {a : α} (h : (ret a : Program (S.sum T) ε α).Leads P prog R before) :
    ∃ c, Begins P (before.map inlEvent : List (S.sum T).Event) c ∧
      (ret a : Program (S.sum T) ε α).Follows (R c) (prog c) := by
  cases h with
  | follows c hpast hc hfollows => exact ⟨c, begins_of_prefix hpast hc, hfollows⟩

/-- One call that is not seen leads on. -/
theorem Leads.next {o : S.Op} {k : S.Reply o → Program (S.sum T) ε α}
    (h : (call (Sum.inl o) k : Program (S.sum T) ε α).Leads P prog R before) (x : S.Reply o) :
    (k x).Leads P prog R (before ++ [⟨o, x⟩]) := by
  cases h with
  | follows c hpast hc hfollows =>
    exact .follows c (hpast.trans (List.prefix_append ..)) hc (hfollows x)
  | unseen hnext => exact hnext x

/-- The first call that is seen is one of a program of the family. -/
theorem Leads.begin {o : T.Op} {k : T.Reply o → Program (S.sum T) ε α}
    (h : (call (Sum.inr o) k : Program (S.sum T) ε α).Leads P prog R before) :
    ∃ c k', Begins P (before.map inlEvent : List (S.sum T).Event) c ∧ prog c = .call o k' ∧
      ∀ x, (k x).Follows (R c) (k' x) := by
  cases h with
  | follows c hpast hc hfollows =>
    obtain ⟨k', hprog, hnext⟩ := hfollows
    exact ⟨c, k', begins_of_prefix hpast hc, hprog, hnext⟩

end Program

namespace System

open Program

variable {sys₁ : System ι S σ} {sys₂ : System ι T τ} {P : ι → List S.Event → κ → Prop}
  {prog : κ → Program T ε β} {R : ι → κ → α → β → Prop}

/-- A configuration of a product whose parties keep a log. -/
abbrev ProductConfig (ι : Type) (S T : Signature) (σ τ ε α : Type) :=
  Config ι (S.sum T) ((σ × τ) × Log ι (S.sum T).Event) ε α

/-- How a run is seen: for each party the member of the family it has begun to follow, if any.
    Whatever the others will turn out to follow, the run seen so far is one of all these programs. -/
structure Seen [DecidableEq ι] (sys₂ : System ι T τ) (P : ι → List S.Event → κ → Prop)
    (prog : κ → Program T ε β) (R : ι → κ → α → β → Prop) (t : τ) (begun : ι → Option κ)
    (c : ProductConfig ι S T σ τ ε α) : Prop where
  member : ∀ i k, begun i = some k → Begins (P i) (c.shared.2.of i) k
  waiting : ∀ i, begun i = none → ∃ before : List S.Event,
    c.shared.2.of i = before.map inlEvent ∧ (c.procs i).Leads (P i) prog (R i) before
  reached : ∀ call : ι → κ, (∀ i k, begun i = some k → call i = k) → ∃ procs,
    sys₂.Reachable ⟨t, fun i => prog (call i)⟩ ⟨c.shared.1.2, procs⟩ ∧
    (∀ i, begun i = none → procs i = prog (call i)) ∧
    ∀ i k, begun i = some k → (c.procs i).Follows (R i k) (procs i)

variable [DecidableEq ι] {t : τ} {begun : ι → Option κ} {c c' : ProductConfig ι S T σ τ ε α}

theorem begins_push {l : Log ι (S.sum T).Event} {i j : ι} {m : κ}
    (event : (S.sum T).Event) (h : Begins (P j) (l.of j) m) :
    Begins (P j) ((l.push i event).of j) m := by
  by_cases hij : j = i
  · subst hij
    rw [Log.of_push]
    exact h.append _
  · rwa [show (l.push i event).of j = l.of j from Function.update_of_ne hij ..]

/-- A call that is not seen. -/
theorem Seen.unseen {x x' : σ × τ} {l : Log ι (S.sum T).Event}
    {procs : ι → Program (S.sum T) ε α} (i : ι) {o : S.Op}
    {k : S.Reply o → Program (S.sum T) ε α} (r : S.Reply o)
    (h : Seen sys₂ P prog R t begun ⟨(x, l), procs⟩) (hp : procs i = .call (Sum.inl o) k)
    (hsame : x'.2 = x.2) :
    Seen sys₂ P prog R t begun
      ⟨(x', l.push i (inlEvent ⟨o, r⟩)), Function.update procs i (k r)⟩ := by
  refine ⟨fun j m hj => begins_push _ (h.member j m hj), fun j hj => ?_, fun call hcall => ?_⟩
  · obtain ⟨before, hlog, hleads⟩ := h.waiting j hj
    by_cases hij : j = i
    · subst hij
      dsimp only at hlog hleads
      rw [hp] at hleads
      refine ⟨before ++ [⟨o, r⟩], ?_, ?_⟩
      · rw [Log.of_push, hlog, List.map_append]
        rfl
      · simpa using hleads.next r
    · refine ⟨before, ?_, ?_⟩
      · rw [← hlog]
        exact Function.update_of_ne hij ..
      · simpa [Function.update_of_ne hij] using hleads
  · obtain ⟨seen, hreached, hstill, hfollow⟩ := h.reached call hcall
    refine ⟨seen, hsame ▸ hreached, hstill, fun j m hj => ?_⟩
    have hfollows := hfollow j m hj
    by_cases hij : j = i
    · subst hij
      dsimp only at hfollows
      rw [hp] at hfollows
      simpa using hfollows r
    · simpa [Function.update_of_ne hij] using hfollows

/-- A call to the second environment: the program that the party follows makes it too. If it is the
    first one, it settles which program that is. -/
theorem Seen.call {x x' : σ × τ} {l : Log ι (S.sum T).Event}
    {procs : ι → Program (S.sum T) ε α} (i : ι) {o : T.Op}
    {k : T.Reply o → Program (S.sum T) ε α} {r : T.Reply o}
    (h : Seen sys₂ P prog R t begun ⟨(x, l), procs⟩) (hp : procs i = .call (Sum.inr o) k)
    (hexec : sys₂.exec i o x.2 r x'.2) :
    ∃ begun', Seen sys₂ P prog R t begun'
      ⟨(x', l.push i (inrEvent ⟨o, r⟩)), Function.update procs i (k r)⟩ := by
  have hlogs : ∀ j, j ≠ i → (l.push i (inrEvent ⟨o, r⟩ : (S.sum T).Event)).of j = l.of j :=
    fun j hij => Function.update_of_ne hij ..
  cases hbegun : begun i with
  | some m =>
    refine ⟨begun, fun j m' hj => begins_push _ (h.member j m' hj), fun j hj => ?_,
      fun call hcall => ?_⟩
    · have hne : j ≠ i := by rintro rfl; rw [hbegun] at hj; cases hj
      simp only [Function.update_of_ne hne, hlogs j hne]
      exact h.waiting j hj
    · obtain ⟨seen, hreached, hstill, hfollow⟩ := h.reached call hcall
      have hfollows := hfollow i m hbegun
      simp only [hp] at hfollows
      obtain ⟨k', hseen, hnext⟩ := hfollows
      refine ⟨_, hreached.run i hseen hexec, fun j hj => ?_, fun j m' hj => ?_⟩
      · have hne : j ≠ i := by rintro rfl; rw [hbegun] at hj; cases hj
        rw [Function.update_of_ne hne]
        exact hstill j hj
      · by_cases hij : j = i
        · subst hij
          obtain rfl := Option.some.inj (hbegun.symm.trans hj)
          simpa using hnext r
        · simpa [Function.update_of_ne hij] using hfollow j m' hj
  | none =>
    obtain ⟨before, hlog, hleads⟩ := h.waiting i hbegun
    dsimp only at hlog hleads
    rw [hp] at hleads
    obtain ⟨m, k', hm, hprog, hnext⟩ := hleads.begin
    refine ⟨Function.update begun i (some m), fun j m' hj => begins_push _ ?_, fun j hj => ?_,
      fun call hcall => ?_⟩
    · by_cases hij : j = i
      · subst hij
        rw [Function.update_self] at hj
        cases hj
        rwa [hlog]
      · rw [Function.update_of_ne hij] at hj
        exact h.member j m' hj
    · have hij : j ≠ i := by rintro rfl; rw [Function.update_self] at hj; cases hj
      rw [Function.update_of_ne hij] at hj
      simp only [Function.update_of_ne hij, hlogs j hij]
      exact h.waiting j hj
    · have hothers : ∀ j m', begun j = some m' → call j = m' := fun j m' hj => by
        have hij : j ≠ i := by rintro rfl; rw [hbegun] at hj; cases hj
        exact hcall j m' (by rw [Function.update_of_ne hij, hj])
      obtain ⟨seen, hreached, hstill, hfollow⟩ := h.reached call hothers
      have hcalled : call i = m := hcall i m (Function.update_self ..)
      have hseen : seen i = .call o k' := by rw [hstill i hbegun, hcalled, hprog]
      refine ⟨_, hreached.run i hseen hexec, fun j hj => ?_, fun j m' hj => ?_⟩
      · have hij : j ≠ i := by rintro rfl; rw [Function.update_self] at hj; cases hj
        rw [Function.update_of_ne hij] at hj ⊢
        exact hstill j hj
      · by_cases hij : j = i
        · subst hij
          rw [Function.update_self] at hj
          cases hj
          simpa using hnext r
        · rw [Function.update_of_ne hij] at hj
          simpa [Function.update_of_ne hij] using hfollow j m' hj

/-- The step lemma. -/
theorem Seen.step (h : Seen sys₂ P prog R t begun c) (hs : (sys₁.prod sys₂).traced.Step c c') :
    ∃ begun', Seen sys₂ P prog R t begun' c' := by
  cases hs with
  | @env x x' procs henv =>
    obtain ⟨⟨x, l⟩, ⟨x', l'⟩⟩ := x, x'
    obtain ⟨henv, rfl⟩ : (sys₁.prod sys₂).env x x' ∧ l' = l := henv
    refine ⟨begun, h.member, h.waiting, fun call hcall => ?_⟩
    obtain ⟨seen, hreached, hstill, hfollow⟩ := h.reached call hcall
    refine ⟨seen, ?_, hstill, hfollow⟩
    rcases henv with ⟨-, hsame⟩ | ⟨henv, -⟩
    · exact hsame ▸ hreached
    · exact hreached.env henv
  | @run x x' procs i o k r hp hexec =>
    obtain ⟨⟨x, l⟩, ⟨x', l'⟩⟩ := x, x'
    obtain ⟨hexec, rfl⟩ : (sys₁.prod sys₂).exec i o x r x' ∧ l' = l.push i ⟨o, r⟩ := hexec
    rcases o with o | o
    · exact ⟨begun, h.unseen (o := o) i r hp hexec.2⟩
    · exact h.call (o := o) i hp hexec.1

/-- By induction on the run: every run of the product is seen as a run of the second system. A party
    that has not begun to follow a program has not returned either, and is seen at the start of any
    other one. -/
theorem Reachable.project {x : σ × τ} {procs : ι → Program (S.sum T) ε α}
    (hr : (sys₁.prod sys₂).traced.Reachable ⟨(x, Log.empty), procs⟩ c)
    (hleads : ∀ i, (procs i).Leads (P i) prog (R i) []) (other : ι → κ) :
    ∃ (call : ι → κ) (seen : ι → Program T ε β),
      sys₂.Reachable ⟨x.2, fun i => prog (call i)⟩ ⟨c.shared.1.2, seen⟩ ∧
      ∀ i, Begins (P i) (c.shared.2.of i) (call i) ∧ (c.procs i).Follows (R i (call i)) (seen i) ∨
        call i = other i ∧ seen i = prog (other i) ∧ ∀ a, c.procs i ≠ .ret a := by
  have hseen : ∃ begun, Seen sys₂ P prog R x.2 begun c := by
    induction hr with
    | refl =>
      refine ⟨fun _ => none, nofun, fun i _ => ⟨[], rfl, hleads i⟩, fun call _ => ?_⟩
      exact ⟨_, .refl, fun _ _ => rfl, nofun⟩
    | tail _ hs ih =>
      obtain ⟨begun, h⟩ := ih
      exact h.step hs
  obtain ⟨begun, h⟩ := hseen
  -- a party that returned without a call has followed a program that made none
  have hcall : ∀ i, ∃ m, (∀ m', begun i = some m' → m = m') ∧
      (begun i = none → (Begins (P i) (c.shared.2.of i) m ∧ (c.procs i).Follows (R i m) (prog m)) ∨
        m = other i ∧ ∀ a, c.procs i ≠ .ret a) := by
    intro i
    cases hbegun : begun i with
    | some m => exact ⟨m, fun _ h => Option.some.inj h, nofun⟩
    | none =>
      cases hp : c.procs i with
      | ret a =>
        obtain ⟨before, hlog, hleads⟩ := h.waiting i hbegun
        rw [hp] at hleads
        obtain ⟨m, hm, hfollows⟩ := hleads.ret
        rw [hlog]
        exact ⟨m, nofun, fun _ => .inl ⟨hm, hfollows⟩⟩
      | raise e => exact ⟨other i, nofun, fun _ => .inr ⟨rfl, nofun⟩⟩
      | call o k => exact ⟨other i, nofun, fun _ => .inr ⟨rfl, nofun⟩⟩
  choose call hcall hreturned using hcall
  obtain ⟨seen, hreached, hstill, hfollow⟩ := h.reached call hcall
  refine ⟨call, seen, hreached, fun i => ?_⟩
  cases hbegun : begun i with
  | some m =>
    obtain rfl := hcall i m hbegun
    exact .inl ⟨h.member i _ hbegun, hfollow i _ hbegun⟩
  | none =>
    rcases hreturned i hbegun with hreturned | ⟨hother, hlive⟩
    · rw [← hstill i hbegun] at hreturned
      exact .inl hreturned
    · exact .inr ⟨hother, hother ▸ hstill i hbegun, hlive⟩

end System

end EvidenceCartographer.Concurrency
