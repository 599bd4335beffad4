import Mathlib.Logic.Basic

/-! Programs that call out to an environment.

    A program is a tree: it returns, it raises, or it calls one operation of its signature and goes
    on with the answer, whatever that is. Python code whose only contact with the outside is a set
    of requests is such a tree, with `return`, `raise` and `try` as the three ways to end or to
    continue one. Nothing here says what the operations do: that is the business of a system the
    program runs in. -/

namespace EvidenceCartographer.Concurrency

/-- The operations a program may call, and what each of them answers. -/
structure Signature where
  Op : Type
  Reply : Op → Type

/-- A program over `S` that returns an `α` or raises an `ε`. -/
inductive Program (S : Signature) (ε α : Type) where
  | ret (a : α)
  | raise (e : ε)
  | call (o : S.Op) (k : S.Reply o → Program S ε α)

namespace Program

variable {S : Signature} {ε α β : Type}

/-- Sequencing: a raise skips what follows. -/
def bind : Program S ε α → (α → Program S ε β) → Program S ε β
  | .ret a, f => f a
  | .raise e, _ => .raise e
  | .call o k, f => .call o fun r => (k r).bind f

/-- `try: p except: h`. -/
def handle : Program S ε α → (ε → Program S ε α) → Program S ε α
  | .ret a, _ => .ret a
  | .raise e, h => h e
  | .call o k, h => .call o fun r => (k r).handle h

/-- Run `p` and hand back how it ended, raised or not. -/
def attempt : Program S ε α → Program S ε (Except ε α)
  | .ret a => .ret (.ok a)
  | .raise e => .ret (.error e)
  | .call o k => .call o fun r => (k r).attempt

/-- `try: p finally: cleanup`, and `with`: a raise of the cleanup replaces what it cleans up. -/
def ensuring (p : Program S ε α) (cleanup : Program S ε Unit) : Program S ε α :=
  p.attempt.bind fun r => cleanup.bind fun _ => match r with
    | .ok a => .ret a
    | .error e => .raise e

/-- One call, its answer returned. -/
def perform (o : S.Op) : Program S ε (S.Reply o) := .call o .ret

/-- A computation that needs no call. -/
def ofExcept : Except ε α → Program S ε α
  | .ok a => .ret a
  | .error e => .raise e

/-- How the program ended, if it has. -/
def outcome : Program S ε α → Option (Except ε α)
  | .ret a => some (.ok a)
  | .raise e => some (.error e)
  | .call _ _ => none

instance : Monad (Program S ε) where
  pure := .ret
  bind := bind

@[simp] theorem bind_eq (p : Program S ε α) (f : α → Program S ε β) : p >>= f = p.bind f := rfl

theorem outcome_ofExcept (x : Except ε α) : (ofExcept x : Program S ε α).outcome = some x := by
  cases x <;> rfl

@[simp] theorem outcome_eq_ok (p : Program S ε α) (a : α) :
    p.outcome = some (.ok a) ↔ p = .ret a := by
  cases p <;> simp [outcome]

@[simp] theorem outcome_eq_error (p : Program S ε α) (e : ε) :
    p.outcome = some (.error e) ↔ p = .raise e := by
  cases p <;> simp [outcome]

end Program

end EvidenceCartographer.Concurrency
