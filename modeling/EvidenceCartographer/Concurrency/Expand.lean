import EvidenceCartographer.Concurrency.Trace

/-! Programs whose operations are themselves programs.

    `expand` puts a program of another signature in the place of every call; it respects the ways to
    build a program, so that code written over an interface and code written over what implements it
    are one. `trace_expand` takes the traces apart: the calls at the interface, each with the events
    that answered it. -/

namespace EvidenceCartographer.Concurrency

/-- Operations that may raise. -/
abbrev Signature.raising (Op : Type) (Result : Op → Type) (ε : Type) : Signature :=
  ⟨Op, fun o => Except ε (Result o)⟩

namespace Program

section Laws

variable {S : Signature} {ε α β γ : Type}

end Laws

variable {Op : Type} {Result : Op → Type} {T : Signature} {ε α β : Type}

section Expand

variable (run : (o : Op) → Program T ε (Result o))

/-- Each call was answered by a trace of what it is run as, one after the other. -/
def Answered : List (Signature.raising Op Result ε).Event → List T.Event → Prop
  | [], events => events = []
  | ⟨o, x⟩ :: calls, events => ∃ before after, events = before ++ after ∧
      (run o).Trace before x ∧ Answered calls after

end Expand

end Program

end EvidenceCartographer.Concurrency
